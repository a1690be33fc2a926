/-
Assignments.  What is given is converted first, then it is written, and at last what was there
before is let go of, with what was given.  Conversions only add to the world, and only one twin
is written to, so all else is as it was but for what is released at the end.
-/
import TwinObject.Proofs.Copies
import TwinObject.Proofs.Releases

namespace TwinObject

open Hold

theorem Twin.valueAt_of_bare {a b : Twin} (hbare : b.bare = a.bare) (p : Place) :
    b.valueAt? p = a.valueAt? p := by
  have hstorage : b.storage = a.storage := congrArg (·.storage) (hbare : b.bare = a.bare)
  rw [valueAt?, hstorage, valueAt?]

/-- A twin apart from its halves and how many handles there are to it. -/
def Twin.husk (a : Twin) : Twin :=
  { a.bare with storage := [], attrs := {} }

theorem Twin.husk_of_bare {a b : Twin} (hbare : b.bare = a.bare) : b.husk = a.husk := by
  rw [husk, hbare, husk]

namespace World

variable {w x u v : World} {t i : TwinId} {a b : Twin} {S : Hold}

/-- Whether there are only more twins and more handles than before. -/
structure Extends (w x : World) : Prop where
  frame : ∃ twins journal, x = { w with twins, journal }
  twin : ∀ (i : TwinId) (a : Twin), w.twins[i]? = some a →
    ∃ b, x.twins[i]? = some b ∧ b.bare = a.bare

namespace Extends

theorem refl (w : World) : w.Extends w :=
  ⟨⟨w.twins, w.journal, rfl⟩, fun _ a ha => ⟨a, ha, rfl⟩⟩

theorem trans (h : w.Extends u) (h' : u.Extends v) : w.Extends v where
  frame := by
    obtain ⟨twins, journal, rfl⟩ := h.frame
    obtain ⟨twins', journal', rfl⟩ := h'.frame
    exact ⟨twins', journal', rfl⟩
  twin i a ha := by
    obtain ⟨b, hb, hab⟩ := h.twin i a ha
    obtain ⟨c, hc, hbc⟩ := h'.twin i b hb
    exact ⟨c, hc, hbc.trans hab⟩

theorem setTwin (ha : w.twins[t]? = some a) (hbare : b.bare = a.bare) :
    w.Extends (w.setTwin t b) where
  frame := ⟨_, _, rfl⟩
  twin i c hc := by
    rw [getElem?_setTwin ha]
    split
    · rename_i hi
      cases (hi ▸ ha).symm.trans hc
      exact ⟨b, rfl, hbare⟩
    · exact ⟨c, hc, rfl⟩

theorem retain (w : World) (h : Handle) : w.Extends (w.retain h) := by
  cases ha : w.twins[h.twin]? with
  | none =>
      rw [World.retain, modifyTwin_of_none ha]
      exact refl w
  | some a =>
      rw [World.retain, modifyTwin_eq ha]
      exact setTwin ha (Twin.bare_retain h a)

theorem retainAll (w : World) (hs : List Handle) : w.Extends (w.retainAll hs) := by
  induction hs generalizing w with
  | nil => exact refl w
  | cons h hs ih => exact (retain w h).trans (ih (w.retain h))

theorem admitTwin (w : World) (a : Twin) : w.Extends (w.admitTwin a).1 where
  frame := ⟨_, _, rfl⟩
  twin i b hb := by
    obtain ⟨hlt, -⟩ := Array.getElem?_eq_some_iff.mp hb
    refine ⟨b, ?_, rfl⟩
    change (w.twins.push a)[i]? = some b
    rw [Array.getElem?_push_lt hlt, ← hb, Array.getElem?_eq_getElem hlt]

/-- A handle that changes sides releases nothing. -/
theorem asNative (ha : w.twins[t]? = some a) (hcounted : a.dynamicCount ≠ 0) :
    w.Extends (w.asNative t) := by
  rw [World.asNative, drop_retain_other (h := .native t) (k := .dynamic t) rfl nofun ha hcounted]
  exact setTwin ha ((Twin.bare_forget _ _).trans (Twin.bare_retain _ _))

theorem copyTwin (t : TwinId) (w : World) : w.Extends (copyTwin t w).2 := by
  unfold World.copyTwin
  dsimp only
  split
  · exact refl w
  · exact (retainAll w _).trans (admitTwin _ _)

/-- A new copy is held by one dynamic handle. -/
theorem copyTwin_counted {new : TwinId} (hcopy : World.copyTwin t w = (.ok new, x)) :
    ∃ b, x.twins[new]? = some b ∧ b.dynamicCount ≠ 0 := by
  unfold World.copyTwin at hcopy
  dsimp only at hcopy
  split at hcopy
  · cases hcopy
  · cases hcopy
    exact ⟨(w.twin t).reborn (w.twin t).storage (w.twin t).attrs, Array.getElem?_push_size,
      Nat.one_ne_zero⟩

/-- A conversion releases nothing: only a new copy changes sides. -/
theorem toNative (context : String) (v : DynValue) (ty : NativeType) (w : World) :
    w.Extends (Crossing.toNative context v ty w).2 := by
  unfold Crossing.toNative
  cases v with
  | object t =>
      cases ty with
      | object c =>
          dsimp only
          split
          · cases hcopy : World.copyTwin t w with
            | mk made x =>
                have hmade := copyTwin t w
                rw [hcopy] at hmade
                cases made with
                | error f => exact hmade
                | ok new =>
                    obtain ⟨b, hb, hcounted⟩ := copyTwin_counted hcopy
                    exact hmade.trans (asNative hb hcounted)
          · exact refl w
      | ref c | ptr c =>
          dsimp only
          split
          · exact retain w _
          · exact refl w
      | _ => exact refl w
  | _ => cases ty <;> exact refl w

theorem classes (h : w.Extends x) : x.classes = w.classes := by
  obtain ⟨twins, journal, rfl⟩ := h.frame
  rfl

theorem upkeep (h : w.Extends x) (ha : w.twins[i]? = some a) : x.upkeep i = w.upkeep i := by
  obtain ⟨b, hb, hbare⟩ := h.twin i a ha
  obtain ⟨twins, journal, rfl⟩ := h.frame
  have hcontents : b.contents = a.contents := (congrArg Twin.contents hbare : b.bare.contents = _)
  have hkind : b.kind = a.kind := congrArg (·.kind) (hbare : b.bare = a.bare)
  rw [World.upkeep, World.upkeep, twin_eq hb, twin_eq ha, hcontents, hkind]
  cases a.kind <;> rfl

theorem alive (h : w.Extends x) (halive : w.Alive i) : x.Alive i := by
  obtain ⟨a, ha, hlive⟩ := halive
  obtain ⟨b, hb, hbare⟩ := h.twin i a ha
  exact ⟨b, hb, (congrArg (·.stage) hbare : b.stage = a.stage).trans hlive⟩

end Extends

end World

/-- The storage of an instance that is lent has the shape of its layout. -/
theorem Attained.shaped {w : World} {R : Hold} {t : TwinId} {a : Twin} (hattained : Attained w R)
    (hlent : Lends R t) (ha : w.twins[t]? = some a) : a.Shaped := by
  obtain ⟨b, hb, hlive⟩ := hattained.alive_of_lent hlent
  cases ha.symm.trans hb
  exact hattained.reached fun _ hreach => hreach.invariant.formed.shaped t a ha hlive

namespace World

variable {w x : World} {t : TwinId}

/-- A value that cannot be converted changes nothing. -/
theorem toNative_error {context : String} {v : DynValue} {ty : NativeType} {f : Failure}
    (herror : Crossing.toNative context v ty w = (.error f, x)) : x = w := by
  unfold Crossing.toNative at herror
  cases v with
  | object t =>
      cases ty with
      | object c =>
          dsimp only at herror
          split at herror
          · cases hcopy : World.copyTwin t w with
            | mk made y =>
                rw [hcopy] at herror
                cases made with
                | ok new => cases herror
                | error f =>
                    cases herror
                    unfold World.copyTwin at hcopy
                    dsimp only at hcopy
                    split at hcopy
                    · cases hcopy
                      rfl
                    · cases hcopy
          · cases herror
            rfl
      | ref c | ptr c =>
          dsimp only at herror
          split at herror <;> cases herror
          rfl
      | _ => cases herror <;> rfl
  | _ => cases ty <;> cases herror <;> rfl

/-- A dynamic assignment that fails does no more than let go of the value. -/
theorem setAttr_error {name : String} {v : DynValue} {e : Thrown}
    (herror : (setAttr t name v w).1 = .error e) : (setAttr t name v w).2 = w.drop v.handles := by
  revert herror
  unfold setAttr
  dsimp only
  split
  · exact nofun
  · split
    · exact nofun
    · rename_i d hdecl
      cases hresult : Crossing.toNative ("assignment to '" ++ name ++ "'") v d.type w with
      | mk r x =>
          cases r with
          | error f =>
              intro _
              rw [toNative_error hresult]
          | ok n => exact nofun

end World

/-- Whether a write concerns nothing but the halves of a twin, whatever handles there are to it. -/
structure Twin.Rewrites (f : Twin → Twin) : Prop where
  husk : ∀ a, (f a).husk = a.husk
  bare : ∀ a, (f a).bare = f a.bare

theorem Twin.rewrites_setValue (p : Place) (v : NativeValue) : Rewrites (setValue · p v) :=
  ⟨fun _ => rfl, fun _ => rfl⟩

theorem Twin.rewrites_put (name : String) (v : DynValue) :
    Rewrites fun a => { a with attrs := a.attrs.put name v } :=
  ⟨fun _ => rfl, fun _ => rfl⟩

theorem Twin.Rewrites.of_bare {f : Twin → Twin} (hf : Rewrites f) {a b : Twin}
    (hbare : b.bare = a.bare) : (f b).bare = (f a).bare := by
  rw [hf.bare, hbare, hf.bare]

namespace World

variable {w x u v : World} {t i : TwinId} {a b : Twin} {S : Hold} {f : Twin → Twin}
  {lost hs : List Handle}

/-- Whether a world comes of a write to one twin, after a conversion that led to `x`, and of
letting go of handles then. -/
structure Writes (w x : World) (t : TwinId) (f : Twin → Twin) (lost : List Handle) (u : World) :
    Prop where
  rewrites : Twin.Rewrites f
  converted : w.Extends x
  result : u = (x.modifyTwin t f).drop lost

theorem upkeep_modifyTwin (f : Twin → Twin) (hi : i ≠ t) :
    (w.modifyTwin t f).upkeep i = w.upkeep i := by
  have htwin : (w.modifyTwin t f).twin i = w.twin i := by
    rw [twin, twin?, getElem?_modifyTwin, if_neg (Ne.symm hi), twin, twin?]
  rw [upkeep, upkeep, htwin]
  cases (w.twin i).kind <;> rfl

namespace Writes

variable (h : w.Writes x t f lost u)

include h

/-- The twin is as it was written, if it is alive. -/
theorem itself (ha : w.twins[t]? = some a) (halive : u.Alive t) :
    ∃ c, u.twins[t]? = some c ∧ c.stage = .live ∧ c.bare = (f a).bare := by
  obtain ⟨hf, hconverted, rfl⟩ := h
  obtain ⟨b, hb, hbare⟩ := hconverted.twin t a ha
  obtain ⟨c, hc, hlive⟩ := halive
  have hwritten : (x.modifyTwin t f).twins[t]? = some (f b) := by
    rw [getElem?_modifyTwin, if_pos rfl, hb, Option.map_some]
  exact ⟨c, hc, hlive,
    (((Still.drop _ lost).rests.twin hwritten hc).bare hlive).trans (hf.of_bare hbare)⟩

/-- The other twins are as they were after the conversion, if they are alive. -/
theorem since (hi : i ≠ t) (hb : x.twins[i]? = some b) :
    ∃ c, u.twins[i]? = some c ∧ b.Rests c := by
  have hwritten : (x.modifyTwin t f).twins[i]? = some b := by
    rw [getElem?_modifyTwin, if_neg (Ne.symm hi), hb]
  rw [h.result]
  exact (Still.drop (x.modifyTwin t f) lost).rests i b hwritten

/-- So they are as they were before it. -/
theorem others (hi : i ≠ t) (ha : w.twins[i]? = some a) :
    ∃ c, u.twins[i]? = some c ∧ a.Rests c := by
  obtain ⟨b, hb, hbare⟩ := h.converted.twin i a ha
  have hrests : a.Rests b := ⟨(congrArg (·.kind) hbare : b.kind = a.kind), fun _ => hbare⟩
  obtain ⟨c, hc, hstill⟩ := h.since hi hb
  exact ⟨c, hc, hrests.trans hstill⟩

/-- Classes that something is made of are as they were. -/
theorem classes {id : ClassId} (hreaches : u.reachesClass id = true) :
    u.classes[id]? = w.classes[id]? := by
  obtain ⟨-, hconverted, rfl⟩ := h
  rw [(KeepsClasses.drop _ lost id hreaches).2]
  exact congrArg (·[id]?) hconverted.classes

/-- What is released is reached from the handles that are let go of. -/
theorem released (halive : u.Alive t) (hlost : ∀ h ∈ lost, h ∈ hs ∨ u.Alive h.twin)
    (hthere : ∀ i, w.Reached u hs i → i < w.twins.size) (hi : w.Alive i)
    (hreleased : ¬u.Alive i) : w.Reached u hs i := by
  obtain ⟨hf, hconverted, rfl⟩ := h
  refine reached_of_drop rfl hlost (fun j hj hgone => ?_)
    ((hconverted.alive hi).modifyTwin fun a => congrArg (·.stage) (hf.husk a)) hreleased
  have hne : j ≠ t := fun hjt => hgone (hjt ▸ halive)
  rw [upkeep_modifyTwin f hne, hconverted.upkeep (Array.getElem?_eq_getElem (hthere j hj))]
  exact List.Subset.refl _

/-- The instance looks as if nothing had been done but to write it. -/
theorem look (ha : w.twins[t]? = some a) (halive : u.Alive t) (l : Look) :
    u.look t l = (w.setTwin t (f a)).look t l := by
  obtain ⟨c, hc, hlive, hbare⟩ := h.itself ha halive
  have hwritten : (w.setTwin t (f a)).twins[t]? = some (f a) := by
    rw [getElem?_setTwin ha, if_pos rfl]
  have hkind : c.kind = (f a).kind := congrArg (·.kind) (hbare : c.bare = _)
  refine look_congr hwritten hc hkind (congrArg (·.storage) (hbare : c.bare = _))
    (congrArg (·.attrs) (hbare : c.bare = _)) (fun d hd => ?_) l
  refine h.classes (reachesClass_of_alive hc hlive ?_)
  rwa [hkind]

omit h in
/-- After a write to a place the instance stores what was written there, and what it stored
elsewhere. -/
theorem valueAt {p : Place} {n old : NativeValue} (h : w.Writes x t (·.setValue p n) lost u)
    (ha : w.twins[t]? = some a) (hold : a.valueAt? p = some old) (halive : u.Alive t) :
    ∃ c, u.twins[t]? = some c ∧ c.kind = a.kind
      ∧ ∀ q, c.valueAt? q = if q = p then some n else a.valueAt? q := by
  obtain ⟨c, hc, -, hbare⟩ := h.itself ha halive
  refine ⟨c, hc, (congrArg (·.kind) (hbare : c.bare = _) : c.kind = a.kind), fun q => ?_⟩
  rw [Twin.valueAt_of_bare hbare, Twin.valueAt_setValue hold]

end Writes

/-- What native code reads under a name is what is stored in the member that it finds. -/
theorem getField_of_value {name : String} {p : Place} {n : NativeValue}
    (ha : w.twins[t]? = some a) (hfind : a.layout.findMember? name = some p)
    (hvalue : a.valueAt? p = some n) : (getField t name w).1 = .ok n := by
  simp [getField, readMember, twin_eq ha, hfind, hvalue]

/-- What dynamic code reads under the name of a visible member is what is stored there. -/
theorem getAttr_of_value {name : String} {p : Place} {n : NativeValue}
    (ha : w.twins[t]? = some a)
    (hfind : a.layout.findVisibleMember? name a.kind.fromDerived = some p)
    (hvalue : a.valueAt? p = some n) : (getAttr t name w).1 = .ok n.toDyn := by
  simp [getAttr, findAttr?, twin_eq ha, hfind, hvalue]

section Kinds

variable {name : String} {p : Place}

/-- Under a name that no visible member has an attribute is bound. -/
theorem setAttr_attr (v : DynValue) (ha : w.twins[t]? = some a)
    (hfind : a.layout.findVisibleMember? name a.kind.fromDerived = none) :
    (setAttr t name v w).1 = .ok ()
      ∧ w.Writes w t (fun a => { a with attrs := a.attrs.put name v })
        ((a.attrs.get? name).elim [] DynValue.handles) (setAttr t name v w).2 := by
  have hassigned : setAttr t name v w = (.ok (), w.storeAttr t name v) := by
    rw [← twin_eq ha] at hfind
    simp only [setAttr, hfind]
  rw [hassigned, storeAttr, twin?, ha, Option.bind_some]
  exact ⟨rfl, Twin.rewrites_put name v, .refl w, rfl⟩

/-- What a place held is let go of when it is written. -/
theorem storeValue_eq {old n : NativeValue} (ha : w.twins[t]? = some a)
    (hold : a.valueAt? p = some old) :
    w.storeValue t p n = (w.modifyTwin t (·.setValue p n)).drop old.handles := by
  simp only [storeValue, twin?, ha, Option.bind_some, hold]

/-- A visible member is assigned the value converted to its type. -/
theorem setAttr_member {v : DynValue} (hattained : Attained w (S + v.hold)) (hlent : Lends S t)
    (ha : w.twins[t]? = some a)
    (hfind : a.layout.findVisibleMember? name a.kind.fromDerived = some p)
    (hok : (setAttr t name v w).1 = .ok ()) :
    ∃ d n x old, a.layout.memberDecl? p = some d
      ∧ Crossing.toNative ("assignment to '" ++ name ++ "'") v d.type w = (.ok n, x)
      ∧ a.valueAt? p = some old
      ∧ w.Writes x t (·.setValue p n) (old.handles ++ v.handles) (setAttr t name v w).2 := by
  obtain ⟨d, hdecl, -⟩ := Layout.memberDecl_of_find hfind
  obtain ⟨old, hold⟩ := (hattained.shaped hlent.left ha).valueAt hdecl
  have hextends := Extends.toNative ("assignment to '" ++ name ++ "'") v d.type w
  have hfind' := hfind
  have hdecl' := hdecl
  rw [← twin_eq ha] at hfind' hdecl'
  revert hok
  cases hresult : Crossing.toNative ("assignment to '" ++ name ++ "'") v d.type w with
  | mk r x =>
      rw [hresult] at hextends
      cases r with
      | error f => simp [setAttr, hfind', hdecl', hresult]
      | ok n =>
          intro _
          obtain ⟨b, hb, hbare⟩ := hextends.twin t a ha
          rw [← Twin.valueAt_of_bare hbare] at hold
          refine ⟨d, n, x, old, hdecl, hresult, Twin.valueAt_of_bare hbare p ▸ hold,
            Twin.rewrites_setValue p n, hextends, ?_⟩
          simp only [setAttr, hfind', hdecl', hresult, storeValue_eq hb hold, drop_append]

/-- A member is assigned the value that fits its type. -/
theorem setField_member {v : NativeValue} (hattained : Attained w (S + v.hold)) (hlent : Lends S t)
    (ha : w.twins[t]? = some a) (hfind : a.layout.findMember? name = some p)
    (hok : (setField t name v w).1 = .ok ()) :
    ∃ d c old, a.layout.memberDecl? p = some d ∧ v.coerce w.census d.type = some c
      ∧ a.valueAt? p = some old
      ∧ w.Writes (w.retainAll c.handles) t (·.setValue p c) (old.handles ++ v.handles)
        (setField t name v w).2 := by
  obtain ⟨d, hdecl, -⟩ := Layout.memberDecl_of_find hfind
  obtain ⟨old, hold⟩ := (hattained.shaped hlent.left ha).valueAt hdecl
  have hassigned : setField t name v w = writeMember t p d ("member '" ++ name ++ "'") v w := by
    simp [setField, twin_eq ha, hfind, hdecl]
  rw [hassigned] at hok ⊢
  unfold writeMember at hok ⊢
  cases hcoerce : v.coerce w.census d.type with
  | none => rw [hcoerce] at hok; cases hok
  | some c =>
      have hextends := Extends.retainAll w c.handles
      obtain ⟨b, hb, hbare⟩ := hextends.twin t a ha
      refine ⟨d, c, old, hdecl, hcoerce, hold, Twin.rewrites_setValue p c, hextends, ?_⟩
      rw [← Twin.valueAt_of_bare hbare] at hold
      dsimp only
      rw [storeValue_eq hb hold, drop_append]

/-- What a parameter is bound to stays so as long as the copy is as it was, if one was made. -/
theorem Binds.mono {v : DynValue} {ty : NativeType} {n : NativeValue} (hbinds : w.Binds x v ty n)
    (hlater : ∀ i b, n = .object i → w.twins.size ≤ i → x.twins[i]? = some b →
      ∃ c, u.twins[i]? = some c ∧ c.bare = b.bare) : w.Binds u v ty n := by
  cases v with
  | object s =>
      cases ty with
      | object c =>
          obtain ⟨i, b, hn, hnew, hb, hdouble⟩ := hbinds
          obtain ⟨c, hc, hbare⟩ := hlater i b hn hnew hb
          refine ⟨i, c, hn, hnew, hc, ?_⟩
          exact ⟨(congrArg (·.kind) (hbare : c.bare = _)).trans hdouble.kind,
            (congrArg (·.storage) (hbare : c.bare = _)).trans hdouble.storage,
            (congrArg (·.attrs) (hbare : c.bare = _)).trans hdouble.attrs,
            (congrArg (·.owner) (hbare : c.bare = _)).trans hdouble.owner,
            (congrArg (·.moved) (hbare : c.bare = _)).trans hdouble.moved,
            (congrArg (·.stage) (hbare : c.bare = _)).trans hdouble.live⟩
      | _ => exact hbinds
  | _ => cases ty <;> exact hbinds

end Kinds

end World

section Values

open World

variable {w u : World} {S : Hold} {t i : TwinId} {a : Twin} {name : String} {p : Place}

/-- An instance that a live one stores is alive. -/
theorem Attained.alive_of_stored (hattained : Attained u S) (ha : u.twins[t]? = some a)
    (hvalue : a.valueAt? p = some (.object i)) : u.Alive i :=
  hattained.accounts.live_of_held (held_of_contents (h := .native i) ha
    (Twin.mem_contents_of_value hvalue (List.mem_singleton_self _)))

/-- What is stored in a visible member is what a parameter of its type would be bound to. -/
theorem Attained.setAttr_binds {v : DynValue} (hattained : Attained w (S + v.hold))
    (hlent : Lends S t) (ha : w.twins[t]? = some a)
    (hfind : a.layout.findVisibleMember? name a.kind.fromDerived = some p)
    (hok : (World.setAttr t name v w).1 = .ok ()) :
    let u := (World.setAttr t name v w).2
    ∃ d n x old, a.layout.memberDecl? p = some d
      ∧ Crossing.toNative ("assignment to '" ++ name ++ "'") v d.type w = (.ok n, x)
      ∧ w.Binds u v d.type n ∧ a.valueAt? p = some old
      ∧ w.Writes x t (·.setValue p n) (old.handles ++ v.handles) u := by
  intro u
  obtain ⟨d, n, x, old, hdecl, hresult, hold, hwrites⟩ :=
    setAttr_member hattained hlent ha hfind hok
  refine ⟨d, n, x, old, hdecl, hresult, ?_, hold, hwrites⟩
  have hu : Attained u S := hattained.setAttr hlent name
  have hx : Attained x (S + (v.hold + n.hold)) := by
    have hsafe := Crossing.toNative_keeping (F := S) (w := w)
      ("assignment to '" ++ name ++ "'") v d.type
    have hgiven := (Attained.act (R := 0) (hattained.cast (by rw [zero_add])) hsafe).1
    rw [hresult, zero_add] at hgiven
    exact hgiven
  have hgiven : LendsAll (S + v.hold) v.handles := (LendsAll.self v.handles).right
  have htried := Tried.respected.toNative ("assignment to '" ++ name ++ "'") v d.type w
  rw [hresult] at htried
  have hhas := hattained.has_of_lends hgiven
  have hbinds : w.Binds x v d.type n := by
    refine htried.binds hhas (Crossing.becomes_toNative _ hhas hresult) ?_ ?_
    · rintro s rfl
      have hgiven : Handle.dynamic s ∈ (DynValue.object s).handles := List.mem_singleton_self _
      exact hx.alive_of_lent ((LendsAll.self _).left.right _ hgiven)
    · rintro i rfl
      exact hx.alive_of_lent ((LendsAll.self _).right.right (.native i) (List.mem_singleton_self _))
  refine hbinds.mono fun i b hn hnew hb => ?_
  -- A new copy is alive at the end as it is stored in an instance that is.
  obtain ⟨c, hc, hlive, hbare⟩ := hwrites.itself ha (hu.alive_of_lent hlent)
  have hstored : c.valueAt? p = some (.object i) := by
    rw [Twin.valueAt_of_bare hbare, Twin.valueAt_setValue hold, if_pos rfl, hn]
  obtain ⟨c', hc', hlive'⟩ := hu.alive_of_stored hc hstored
  have hne : i ≠ t := by
    rintro rfl
    exact absurd (Array.getElem?_eq_some_iff.mp ha).1 (Nat.not_lt.mpr hnew)
  obtain ⟨e, he, hrests⟩ := hwrites.since hne hb
  cases hc'.symm.trans he
  exact ⟨c', hc', hrests.bare hlive'⟩

end Values

end TwinObject
