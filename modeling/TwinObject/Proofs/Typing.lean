/-
Types of what is stored.  A value that was converted to a type is of that type, and
stays so, since no instance ever changes its class; members begin with defaults of
their types, and no step writes anything else.
-/
import TwinObject.Proofs.Evolution

namespace TwinObject

namespace NativeValue

variable {census census' : Census} {type : NativeType} {v c : NativeValue}

/-- Conversion to a type asks of an instance only that it is of the named class. -/
theorem coerce_object {name : String} (hclass : type.className? = some name) (t : TwinId) :
    (object t).coerce census type = if census.isA t name then some (object t) else none := by
  cases type <;> cases hclass <;> rfl

/-- An instance comes from the instance itself. -/
theorem eq_object_of_coerce {t : TwinId} (h : v.coerce census type = some (object t)) :
    v = object t := by
  unfold coerce at h
  split at h <;> simp_all

/-- What conversion to a type gives needs no further conversion. -/
theorem coerce_coerce (h : v.coerce census type = some c) : c.coerce census type = some c := by
  cases type with
  | void => cases h; rfl
  | bool | int | double | str => cases v <;> cases h <;> rfl
  | object name | ref name | ptr name =>
      cases v with
      | object t =>
          have hresult := h
          rw [coerce_object rfl] at hresult
          split at hresult
          · cases hresult
            exact h
          · cases hresult
      | null => first | (cases h; rfl) | cases h
      | _ => cases h

/-- A census in which instances are of at least as many classes. -/
theorem coerce_mono (hisA : ∀ t name, census.isA t name → census'.isA t name)
    (h : v.coerce census type = some c) : v.coerce census' type = some c := by
  cases type with
  | void => exact h
  | bool | int | double | str => cases v <;> exact h
  | object name | ref name | ptr name =>
      cases v with
      | object t =>
          rw [coerce_object rfl] at h ⊢
          split at h
          · rename_i hold
            rw [if_pos (hisA t name hold), h]
          · cases h
      | null => exact h
      | _ => cases h

end NativeValue

namespace World

variable {w u : World} {type : NativeType} {v : NativeValue}

theorem isA_eq {t : TwinId} {a : Twin} (ha : w.twins[t]? = some a) (name : String) :
    w.isA t name = a.kind.isA name := by
  simp [isA, twin?, ha]

theorem exists_of_isA {t : TwinId} {name : String} (hisA : w.isA t name) :
    ∃ a, w.twins[t]? = some a := by
  cases ha : w.twins[t]? with
  | none => simp [isA, twin?, ha] at hisA
  | some a => exact ⟨a, rfl⟩

/-- An instance stays of the classes that it is of. -/
theorem isA_mono (hpersists : Persists w u) {t : TwinId} {name : String} (hisA : w.isA t name) :
    u.isA t name := by
  obtain ⟨a, ha⟩ := exists_of_isA hisA
  obtain ⟨b, hb, hevolves⟩ := hpersists.twins t a ha
  rw [isA_eq ha] at hisA
  rw [isA_eq hb, hevolves.kind]
  exact hisA

theorem Fits.mono (hfits : w.Fits type v) (hpersists : Persists w u) : u.Fits type v :=
  hfits.imp_left (NativeValue.coerce_mono fun _ _ => isA_mono hpersists)

theorem Fits.of_coerce {c : NativeValue} (h : v.coerce w.census type = some c) : w.Fits type c :=
  Or.inl (NativeValue.coerce_coerce h)

theorem Fits.zero (w : World) (type : NativeType) : w.Fits type (.zero type) := by
  cases type with
  | object | ref | ptr => exact Or.inr ⟨rfl, rfl⟩
  | _ => exact Or.inl rfl

/-- A member that is declared begins with a value of its type. -/
theorem Fits.declare (w : World) (name : String) (type : NativeType) (access : Access)
    (default : NativeValue) :
    w.Fits type (MemberDecl.declare w.census name type access default).default := by
  unfold MemberDecl.declare
  cases hcoerce : default.coerce w.census type with
  | some c => exact .of_coerce hcoerce
  | none => exact .zero w type

theorem Conforms.mono {a : Twin} (hconforms : w.Conforms a) (hpersists : Persists w u) :
    u.Conforms a :=
  fun p v d hv hd => (hconforms p v d hv hd).mono hpersists

/-- Only the class and the storage of a twin matter. -/
theorem Conforms.of_eq {a b : Twin} (hconforms : w.Conforms a) (hkind : b.kind = a.kind)
    (hstorage : b.storage = a.storage) : w.Conforms b := by
  intro p v d hv hd
  refine hconforms p v d ?_ ?_
  · rwa [Twin.valueAt?, hstorage] at hv
  · rwa [Twin.layout, hkind] at hd

theorem conforms_of_empty {a : Twin} (hempty : a.storage = []) : w.Conforms a := by
  intro p v d hv
  rw [Twin.valueAt?, hempty] at hv
  cases hv

end World

/-- What holds of the types of all that a world stores, and of all that was written. -/
structure Typed (w : World) : Prop where
  defaults : ∀ (i : Nat) (s : NativeState), w.declared[i]? = some s →
    ∀ d ∈ s.cls.members, w.Fits d.type d.default
  stored : ∀ (t : TwinId) (a : Twin), w.twins[t]? = some a → w.Conforms a
  placed : ∀ (t : TwinId) (p : Place), .astray t p ∉ w.journal.toList

namespace Typed

variable {w w' : World} {R R' : Hold}

theorem initial : Typed .initial where
  defaults i s hs := by simp [World.initial, World.declareInterp] at hs
  stored t a ha := by simp [World.initial, World.declareInterp] at ha
  placed t p := by simp [World.initial, World.declareInterp]

theorem of_eq (ht : Typed w) (hpersists : Persists w w') (htwins : w'.twins = w.twins)
    (hdeclared : w'.declared = w.declared) (hjournal : w'.journal = w.journal) : Typed w' where
  defaults i s hs d hd := (ht.defaults i s (hdeclared ▸ hs) d hd).mono hpersists
  stored t a ha := (ht.stored t a (htwins ▸ ha)).mono hpersists
  placed t p := hjournal ▸ ht.placed t p

theorem record (ht : Typed w) {events : List Event} (hplaced : ∀ t p, .astray t p ∉ events) :
    Typed (w.record events) where
  defaults i s hs d hd := (ht.defaults i s hs d hd).mono (.record w events)
  stored t a ha := (ht.stored t a ha).mono (.record w events)
  placed t p := by
    simp only [World.record, Array.toList_append, List.mem_append, not_or]
    exact ⟨ht.placed t p, hplaced t p⟩

theorem setTwin (ht : Typed w) {t : TwinId} {a b : Twin} (ha : w.twins[t]? = some a)
    (hevolves : a.Evolves b) (hb : w.Conforms b) : Typed (w.setTwin t b) where
  defaults i s hs d hd := (ht.defaults i s hs d hd).mono (.setTwin ha hevolves)
  stored i c hc := by
    rcases World.of_getElem?_setTwin ha hc with ⟨-, rfl⟩ | ⟨-, hc⟩
    · exact hb.mono (.setTwin ha hevolves)
    · exact (ht.stored i c hc).mono (.setTwin ha hevolves)
  placed := ht.placed

/-- A change to a twin that leaves its storage alone. -/
theorem modifyTwin (ht : Typed w) (t : TwinId) {f : Twin → Twin}
    (hevolves : ∀ a : Twin, a.Evolves (f a))
    (hstorage : ∀ a : Twin, (f a).storage = a.storage) : Typed (w.modifyTwin t f) := by
  cases ha : w.twins[t]? with
  | none =>
      rw [World.modifyTwin_of_none ha]
      exact ht
  | some a =>
      rw [World.modifyTwin_eq ha]
      exact ht.setTwin ha (hevolves a) ((ht.stored t a ha).of_eq (hevolves a).kind (hstorage a))

theorem letGo (ht : Typed w) (h : Handle) : Typed (w.letGo h).1 := by
  unfold World.letGo
  split
  · exact ht.record (by simp)
  · rename_i a ha
    have hbase : Typed (if a.tally h = 0 then w.record [.overdrawn h] else w) := by
      split
      · exact ht.record (by simp)
      · exact ht
    have ha' : (if a.tally h = 0 then w.record [.overdrawn h] else w).twins[h.twin]? = some a := by
      split <;> exact ha
    dsimp only
    split
    · rename_i hdue
      refine (hbase.setTwin ha' (Twin.evolves_emptied hdue) (World.conforms_of_empty rfl)).record ?_
      simp [Event.ofRazed]
    · have hforget := Twin.evolves_forget h a
      refine hbase.setTwin ha' hforget ((hbase.stored _ a ha').of_eq hforget.kind ?_)
      cases h <;> rfl

theorem create (ht : Typed w) {a : Twin} (ha : w.Conforms a) : Typed (w.admitTwin a).1 where
  defaults i s hs d hd := (ht.defaults i s hs d hd).mono (.admitTwin w a)
  stored t b hb := by
    rcases World.of_getElem?_admitTwin hb with ⟨-, rfl⟩ | ⟨-, hb⟩
    · exact ha.mono (.admitTwin w a)
    · exact (ht.stored t b hb).mono (.admitTwin w a)
  placed t p := by
    simp only [World.admitTwin, World.record, Array.toList_append, List.mem_append, not_or]
    exact ⟨ht.placed t p, by simp [Event.ofBuilt]⟩

theorem endNative (ht : Typed w) (id : NativeId) : Typed (World.endNative id w).1 := by
  have hpersists := Persists.endNative w id
  revert hpersists
  unfold World.endNative
  split
  · exact fun _ => ht
  · rename_i s hs
    split
    · exact fun _ => ht
    · intro hpersists
      refine ⟨fun i r hr d hd => ?_, fun t a ha => (ht.stored t a ha).mono hpersists, ht.placed⟩
      refine World.Fits.mono ?_ hpersists
      simp only [Array.getElem?_setIfInBounds] at hr
      split at hr
      · split at hr
        · cases hr
          exact ht.defaults _ s hs d hd
        · cases hr
      · exact ht.defaults i r hr d hd

theorem declare (ht : Typed w) {c : NativeClass}
    (hdefaults : ∀ d ∈ c.members, w.Fits d.type d.default)
    (hpersists : Persists w { w with declared := w.declared.push ⟨c, c.ownHandles⟩ }) :
    Typed { w with declared := w.declared.push ⟨c, c.ownHandles⟩ } where
  defaults i s hs d hd := by
    refine World.Fits.mono ?_ hpersists
    simp only [Array.getElem?_push] at hs
    split at hs
    · cases hs
      exact hdefaults d hd
    · exact ht.defaults i s hs d hd
  stored t a ha := (ht.stored t a ha).mono hpersists
  placed := ht.placed

theorem mark (ht : Typed w) (t : TwinId) (index : Nat) (base : NativeClass) :
    Typed (Construction.markBuilt t index base w) := by
  unfold Construction.markBuilt
  dsimp only
  refine Typed.modifyTwin ?_ t (fun a => ⟨rfl, rfl, id, id⟩) fun a => rfl
  split
  · exact ht.record (by simp)
  · exact ht

theorem alike (ht : Typed w) (halike : w.Alike w') : Typed w' :=
  ht.of_eq (.alike halike) halike.twins halike.declared halike.journal

theorem step (ht : Typed w) (hstep : Transition w R w' R') : Typed w' := by
  have hpersists := Persists.of_step hstep
  cases hstep with
  | quiet halike => exact ht.alike halike
  | note text => exact ht.record (by simp)
  | panic => exact ht.record (by simp)
  | throw t => exact ht.record (by simp)
  | recover => exact ht.record (by simp)
  | enter => exact ht.record (by simp)
  | passGate => exact ht.record (by simp)
  | @retain _ h hheld =>
      refine ht.modifyTwin _ (fun a => ?_) fun a => ?_
      · cases h <;> exact ⟨rfl, rfl, id, id⟩
      · cases h <;> rfl
  | letGo h => exact ht.letGo h
  | depart htwin hstage =>
      exact ht.setTwin htwin ⟨rfl, rfl, (fun hlive => by cases hlive), fun _ => rfl⟩
        ((ht.stored _ _ htwin).of_eq rfl rfl)
  | endClass id =>
      obtain ⟨classes, hframe, -⟩ := w.endClass_frame id
      rw [hframe] at hpersists ⊢
      exact ht.of_eq hpersists rfl rfl rfl
  | endNative id => exact ht.endNative id
  | create hnative hdynamic hstage hfilling hshaped hkeeps hconcrete hconforms =>
      exact ht.create hconforms
  | store htwin hstage storage attrs owner moved hshape taken given hbag hconforms =>
      exact ht.setTwin htwin ⟨rfl, rfl, id, id⟩ (hconforms.of_eq rfl rfl)
  | fill htwin hfree => exact ht.modifyTwin _ (fun a => ⟨rfl, rfl, id, id⟩) fun a => rfl
  | unfill t constructed => exact ht.modifyTwin _ (fun a => ⟨rfl, rfl, id, id⟩) fun a => rfl
  | build c => exact ht.record (by simp [Event.ofBuilt])
  | raze c => exact ht.record (by simp [Event.ofRazed])
  | mark htwin hstage hfree hbase hagain => exact ht.mark _ _ _
  | declare hid hparents hdistinct hdefaults => exact ht.declare hdefaults hpersists
  | _ => exact ht.of_eq hpersists rfl rfl rfl

end Typed

end TwinObject
