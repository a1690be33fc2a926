/-
Copies.  A copy stores what its original stored, so it reads as that does.  What is assigned
to an instance, or moved out of it, changes that instance alone, so a copy reads as before as
long as nothing was changed that one looks at on the way.  The instances that members hold by
value are looked at on the way: a copy shares them with its original.
-/
import TwinObject.Proofs.Conversions
import TwinObject.Proofs.Storage

namespace TwinObject

open Hold

namespace World

variable {w u : World} {t i : TwinId}

/-- What is done to one twin leaves the others as they are. -/
theorem Intact.modifyTwin (w : World) (f : Twin → Twin) (hne : i ≠ t) :
    Intact t w (w.modifyTwin i f) := by
  intro a ha
  refine ⟨a, ?_, .refl a, fun _ _ _ => rfl⟩
  rw [World.modifyTwin, Array.getElem?_modify, if_neg hne, ha]

namespace Untouched

theorem record (w : World) (events : List Event) : Untouched w (w.record events) :=
  of_eq rfl rfl

theorem admitTwin (w : World) (a : Twin) : Untouched w (w.admitTwin a).1 := by
  intro t b hb
  refine ⟨b, ?_, .refl b, fun _ _ _ => rfl⟩
  obtain ⟨hlt, -⟩ := Array.getElem?_eq_some_iff.mp hb
  change (w.twins.push a)[t]? = some b
  rw [Array.getElem?_push_lt hlt, ← hb, Array.getElem?_eq_getElem hlt]

theorem copyTwin (w : World) (t : TwinId) : Untouched w (copyTwin t w).2 := by
  unfold World.copyTwin
  dsimp only
  split
  · exact of_eq rfl rfl
  · exact (retainAll w _).trans (admitTwin _ _)

theorem asNative (w : World) (t : TwinId) : Untouched w (w.asNative t) :=
  (retain w _).trans (drop _ _)

theorem setOwner (w : World) (t : TwinId) (flag : Ownership) : Untouched w (setOwner t flag w) := by
  unfold World.setOwner
  cases ha : w.twins[t]? with
  | none =>
      rw [modifyTwin_of_none ha]
      exact of_eq rfl rfl
  | some a =>
      rw [modifyTwin_eq ha]
      exact setTwin ha ⟨rfl, fun hlive => ⟨hlive, rfl, rfl⟩⟩

/-- To put an instance into shared ownership writes nothing to it. -/
theorem share (w : World) (t : TwinId) : Untouched w (share t w).2 := by
  have howned : Untouched w ((World.setOwner t .shared w).retain (.native t)) :=
    (setOwner w t .shared).trans (retain _ _)
  have hgrouped : Untouched w
      { (World.setOwner t .shared w).retain (.native t) with groups := w.groups.push ⟨t, 1⟩ } :=
    howned.trans (of_eq rfl rfl)
  exact hgrouped.trans (drop _ _)

end Untouched

/-- What is done to one twin writes to no other. -/
theorem Intact.disregards (hne : i ≠ t) : Disregards (Intact t) i where
  refl _ := .of_eq rfl rfl
  trans := .trans
  retainAll w hs := Untouched.retainAll w hs t
  drop w hs := Untouched.drop w hs t
  copyTwin s w := Untouched.copyTwin w s t
  astray w _ := Untouched.record w _ t
  modifyTwin w f := .modifyTwin w f hne
  admitTwin w a := Untouched.admitTwin w a t

end World

/-- What code does to an instance that it holds: assign an attribute or a member, or move its
halves out into a new instance. -/
inductive Change where
  | setAttr (t : TwinId) (name : String) (v : DynValue)
  | setField (t : TwinId) (name : String) (v : NativeValue)
  | move (t : TwinId)

namespace Change

def target : Change → TwinId
  | setAttr t _ _ | setField t _ _ | move t => t

def make : Change → World → World
  | setAttr t name v, w => (World.setAttr t name v w).2
  | setField t name v, w => (World.setField t name v w).2
  | move t, w => (World.moveTwin t w).2

/-- The value that is given away. -/
def spends : Change → Hold
  | setAttr _ _ v => v.hold
  | setField _ _ v => v.hold
  | move _ => 0

/-- A move gives a handle to the new instance. -/
def gains : Change → World → Hold
  | move t, w => ofOk Hold.dynamic (World.moveTwin t w).1
  | _, _ => 0

def makeAll : List Change → World → World
  | [], w => w
  | c :: cs, w => makeAll cs (c.make w)

def allSpend (cs : List Change) : Hold :=
  (cs.map spends).sum

def allGain : List Change → World → Hold
  | [], _ => 0
  | c :: cs, w => c.gains w + allGain cs (c.make w)

variable {S T : Hold} {w : World} {t : TwinId}

section Leads

variable {r : World → World → Prop}

theorem leads (c : Change) (hr : World.Disregards r c.target) (w : World) : r w (c.make w) := by
  cases c with
  | setAttr i name v => exact hr.setAttr name v w
  | setField i name v => exact hr.setField name v w
  | move i => exact hr.moveTwin w

/-- Changes lead to a world that is related by all that disregards what they change. -/
theorem leads_makeAll (cs : List Change) (w : World) (hrefl : r w w)
    (hr : ∀ c ∈ cs, World.Disregards r c.target) : r w (makeAll cs w) := by
  induction cs generalizing w with
  | nil => exact hrefl
  | cons c cs ih =>
      have hc := hr c List.mem_cons_self
      exact hc.trans (c.leads hc w)
        (ih (c.make w) (hc.refl _) fun d hd => hr d (List.mem_cons_of_mem c hd))

end Leads

/-- A change to an instance leaves all others as they are. -/
theorem intact_makeAll (cs : List Change) (w : World) (hne : ∀ c ∈ cs, c.target ≠ t) :
    World.Intact t w (makeAll cs w) :=
  leads_makeAll cs w (.of_eq rfl rfl) fun c hc => World.Intact.disregards (hne c hc)

/-- Code can change what it holds, if it holds what it spends. -/
theorem attained_make (c : Change) (hattained : Attained w (T + S + c.spends))
    (hlent : Lends S c.target) : Attained (c.make w) (T + S + c.gains w) := by
  cases c with
  | setAttr t name v => exact (hattained.act (World.setAttr_safe hlent name v)).1
  | setField t name v => exact (hattained.act (World.setField_safe hlent name v)).1
  | move t => exact (hattained.act (World.moveTwin_safe hlent)).1

theorem attained_makeAll (cs : List Change) (hattained : Attained w (S + allSpend cs))
    (hlent : ∀ c ∈ cs, Lends S c.target) : Attained (makeAll cs w) (S + allGain cs w) := by
  induction cs generalizing w S with
  | nil => exact hattained
  | cons c cs ih =>
      have hfirst : Attained (c.make w) (allSpend cs + S + c.gains w) := by
        refine c.attained_make (hattained.cast ?_) (hlent c List.mem_cons_self)
        simp only [allSpend, List.map_cons, List.sum_cons]
        abel
      -- What this change gains is held, with the rest, while the others are made.
      have hrest := ih (S := S + c.gains w) (hfirst.cast (by abel))
        fun d hd => (hlent d (List.mem_cons_of_mem c hd)).left
      exact hrest.cast (by rw [allGain, add_assoc])

end Change

/-- One way to look at an instance: at what dynamic code sees under a name, or at a member
whatever its access. -/
inductive Look where
  | attr (name : String)
  | field (name : String)

namespace World

/-- What one sees of an instance, if anything. -/
def look (w : World) (t : TwinId) : Look → Option DynValue
  | .attr name => (getAttr t name w).1.toOption
  | .field name => (getField t name w).1.toOption.map NativeValue.toDyn

/-- What one sees at the end of a way from a value to what it holds, and to what that holds. -/
def lookAlong (w : World) : DynValue → List Look → Option DynValue
  | v, [] => some v
  | v, l :: path => (v.asObject?).bind fun t => (w.look t l).bind fun v => w.lookAlong v path

/-- The instances that one looks at on the way. -/
def passed (w : World) : DynValue → List Look → List TwinId
  | _, [] => []
  | v, l :: path => (v.asObject?).elim [] fun t =>
      t :: (w.look t l).elim [] fun v => w.passed v path

variable {w u : World} {t : TwinId} {a b : Twin} {R S : Hold}

theorem lookAlong_object (w : World) (t : TwinId) (l : Look) (path : List Look) :
    w.lookAlong (.object t) (l :: path) = (w.look t l).bind fun v => w.lookAlong v path := rfl

theorem lookAlong_of_plain (w : World) {v : DynValue} (hplain : v.asObject? = none) (l : Look)
    (path : List Look) : w.lookAlong v (l :: path) = none := by
  rw [lookAlong, hplain, Option.bind_none]

theorem passed_object (w : World) (t : TwinId) (l : Look) (path : List Look) :
    w.passed (.object t) (l :: path)
      = t :: (w.look t l).elim [] fun v => w.passed v path := rfl

theorem look_attr (w : World) (t : TwinId) (name : String) :
    w.look t (.attr name) = w.findAttr? t name := by
  change (getAttr t name w).1.toOption = w.findAttr? t name
  unfold getAttr
  cases w.findAttr? t name <;> rfl

theorem look_field (w : World) (t : TwinId) (name : String) :
    w.look t (.field name) = (((w.twin t).layout.findMember? name).bind (w.twin t).valueAt?).map
      NativeValue.toDyn := by
  change (getField t name w).1.toOption.map NativeValue.toDyn = _
  unfold getField readMember
  cases ((w.twin t).layout.findMember? name).bind (w.twin t).valueAt? <;> rfl

/-- A class whose parts have the same attributes has the same. -/
theorem classAttr?_congr {c : DynamicClass} (name : String)
    (hclasses : ∀ d ∈ c.chain, u.classes[d.id]? = w.classes[d.id]?) :
    u.classAttr? c name = w.classAttr? c name := by
  unfold classAttr?
  revert hclasses
  generalize c.chain = chain
  intro hclasses
  induction chain with
  | nil => rfl
  | cons d chain ih =>
      rw [List.findSome?_cons, List.findSome?_cons, hclasses d List.mem_cons_self,
        ih fun e he => hclasses e (List.mem_cons_of_mem d he)]

/-- Two instances of one class that store the same look the same. -/
theorem look_congr {i : TwinId} (ha : w.twins[t]? = some a) (hb : u.twins[i]? = some b)
    (hkind : b.kind = a.kind) (hstorage : b.storage = a.storage) (hattrs : b.attrs = a.attrs)
    (hclasses : ∀ d ∈ a.kind.chain, u.classes[d.id]? = w.classes[d.id]?) (l : Look) :
    u.look i l = w.look t l := by
  have hlayout : b.layout = a.layout := by rw [Twin.layout, hkind, Twin.layout]
  have hvalue : b.valueAt? = a.valueAt? := by
    funext p
    rw [Twin.valueAt?, hstorage, Twin.valueAt?]
  cases l with
  | field name => rw [look_field, look_field, twin_eq ha, twin_eq hb, hlayout, hvalue]
  | attr name =>
      rw [look_attr, look_attr, findAttr?, findAttr?, twin_eq ha, twin_eq hb, hlayout, hvalue,
        hkind, hattrs]
      cases hclass : a.kind with
      | native c => rfl
      | dynamic c =>
          have hinherited : u.classAttr? c name = w.classAttr? c name :=
            classAttr?_congr name (by rwa [hclass] at hclasses)
          dsimp only
          rw [hinherited]

/-- What one sees of an instance is held. -/
theorem look_held {l : Look} {v : DynValue} (ha : w.twins[t]? = some a)
    (hlook : w.look t l = some v) {h : Handle} (hh : h ∈ v.handles) : w.Held R h.twin := by
  cases l with
  | attr name => exact findAttr_held ⟨a, ha⟩ ((look_attr w t name).symm.trans hlook) hh
  | field name =>
      rw [look_field, twin_eq ha] at hlook
      obtain ⟨n, hn, rfl⟩ := Option.map_eq_some_iff.mp hlook
      obtain ⟨p, -, hvalue⟩ := Option.bind_eq_some_iff.mp hn
      cases n with
      | object i =>
          cases List.mem_singleton.mp hh
          exact held_of_contents (h := .native i) ha
            (Twin.mem_contents_of_value hvalue (List.mem_singleton_self _))
      | _ => cases hh

/-- If nothing was written to what one looks at on the way then one sees the same. -/
theorem lookAlong_of_intact (hw : Invariant w R) (hu : Invariant u S) {path : List Look}
    {v : DynValue} (hheld : ∀ h ∈ v.handles, w.Held R h.twin)
    (hheld' : ∀ h ∈ v.handles, u.Held S h.twin) (hintact : ∀ t ∈ w.passed v path, Intact t w u) :
    u.lookAlong v path = w.lookAlong v path := by
  induction path generalizing v with
  | nil => rfl
  | cons l path ih =>
      cases v with
      | object t =>
          obtain ⟨a, ha, -⟩ := hw.accounts.live_of_held (hheld (.dynamic t) List.mem_cons_self)
          obtain ⟨b, hb, hlive⟩ :=
            hu.accounts.live_of_held (hheld' (.dynamic t) List.mem_cons_self)
          rw [passed_object] at hintact
          obtain ⟨b', hb', hstays, hclasses⟩ := hintact t List.mem_cons_self a ha
          cases hb.symm.trans hb'
          obtain ⟨-, hstorage, hattrs⟩ := hstays.stores hlive
          have hlook : u.look t l = w.look t l :=
            look_congr ha hb hstays.kind hstorage hattrs (hclasses hlive) l
          rw [lookAlong_object, lookAlong_object, hlook]
          cases hseen : w.look t l with
          | none => rw [Option.bind_none, Option.bind_none]
          | some v =>
              -- What is seen is held by the instance in both worlds, so it is live in both.
              rw [Option.bind_some, Option.bind_some]
              refine ih (fun h hh => look_held ha hseen hh)
                (fun h hh => look_held hb (hlook.trans hseen) hh) fun i hi => hintact i ?_
              rw [hseen]
              exact List.mem_cons_of_mem t hi
      | _ => rw [lookAlong_of_plain w rfl, lookAlong_of_plain u rfl]

/-- Changes to other instances than those that one looks at on the way are not seen. -/
theorem lookAlong_makeAll {cs : List Change} {path : List Look}
    (hattained : Attained w (S + Change.allSpend cs)) (hlent : Lends S t)
    (htargets : ∀ c ∈ cs, Lends S c.target)
    (huntargeted : ∀ i ∈ w.passed (.object t) path, ∀ c ∈ cs, c.target ≠ i) :
    (Change.makeAll cs w).lookAlong (.object t) path = w.lookAlong (.object t) path := by
  obtain ⟨ids', hreach', -⟩ := Change.attained_makeAll cs hattained htargets
  obtain ⟨ids, hreach, -⟩ := hattained
  have htwin : ∀ h ∈ (DynValue.object t).handles, h.twin = t := fun h hh => by
    cases List.mem_singleton.mp hh
    rfl
  apply lookAlong_of_intact hreach.invariant hreach'.invariant
  · intro h hh
    rw [htwin h hh]
    exact hlent.left.right.held hreach.invariant
  · intro h hh
    rw [htwin h hh]
    exact hlent.left.right.held hreach'.invariant
  · intro i hi
    exact Change.intact_makeAll cs w (huntargeted i hi)

theorem size_retainAll (w : World) (hs : List Handle) :
    (w.retainAll hs).twins.size = w.twins.size := by
  induction hs generalizing w with
  | nil => rfl
  | cons h hs ih =>
      have hretain : (w.retain h).twins.size = w.twins.size := Array.size_modify
      exact (ih (w.retain h)).trans hretain

/-- A copy is a new instance of the same class that stores the same. -/
theorem copyTwin_stores {y : TwinId} (ha : w.twins[t]? = some a)
    (hok : (copyTwin t w).1 = .ok y) :
    w.twins[y]? = none ∧ ∃ b, (copyTwin t w).2.twins[y]? = some b ∧ b.stage = .live
      ∧ b.kind = a.kind ∧ b.storage = a.storage ∧ b.attrs = a.attrs := by
  revert hok
  unfold copyTwin
  rw [twin_eq ha]
  dsimp only
  cases a.obstacle? .copy with
  | some f => exact fun hok => by cases hok
  | none =>
      intro hok
      have hsize := size_retainAll w a.contents
      have hy : w.twins.size = y := hsize.symm.trans (Except.ok.inj hok)
      refine ⟨Array.getElem?_eq_none hy.le, a.reborn a.storage a.attrs, ?_, rfl, rfl, rfl, rfl⟩
      change ((w.retainAll a.contents).twins.push _)[y]? = _
      rw [← hy, ← hsize]
      exact Array.getElem?_push_size

/-- A copy looks as its original did, and so does all that it holds. -/
theorem lookAlong_copyTwin (hw : Invariant w R) (hu : Invariant (copyTwin t w).2 S)
    (hlent : Lends R t) (hlent' : Lends S t) {y : TwinId} (hok : (copyTwin t w).1 = .ok y)
    (l : Look) (path : List Look) :
    (copyTwin t w).2.lookAlong (.object y) (l :: path) = w.lookAlong (.object t) (l :: path) := by
  obtain ⟨a, ha, -⟩ := hlent.live hw
  obtain ⟨-, c, hc, -, hkind, hstorage, hattrs⟩ := copyTwin_stores ha hok
  have huntouched := Untouched.copyTwin w t
  have hclasses : ∀ d ∈ a.kind.chain, (copyTwin t w).2.classes[d.id]? = w.classes[d.id]? := by
    obtain ⟨b, hb, -, hclasses⟩ := huntouched t a ha
    obtain ⟨b', hb', hlive⟩ := hlent'.live hu
    cases hb.symm.trans hb'
    exact hclasses hlive
  have hlook : (copyTwin t w).2.look y l = w.look t l :=
    look_congr ha hc hkind hstorage hattrs hclasses l
  rw [lookAlong_object, lookAlong_object, hlook]
  cases hseen : w.look t l with
  | none => rw [Option.bind_none, Option.bind_none]
  | some v =>
      rw [Option.bind_some, Option.bind_some]
      exact lookAlong_of_intact hw hu (fun h hh => look_held ha hseen hh)
        (fun h hh => look_held hc (hlook.trans hseen) hh) fun i _ => huntouched i

/-- What a vector appends is a copy, to which nothing is written on the way. -/
theorem vecAppend_copies {i : Nat} (hok : (vecAppend .copy i t w).1 = .ok ()) :
    ∃ y, (copyTwin t w).1 = .ok y ∧ Untouched (copyTwin t w).2 (vecAppend .copy i t w).2
      ∧ ∀ v, (vecAppend .copy i t w).2.vecs[i]? = some v → y ∈ v.items := by
  have hcopy : reproduce .copy t w = copyTwin t w := rfl
  revert hok
  unfold vecAppend
  rw [hcopy]
  dsimp only
  split
  · exact fun hok => by cases hok
  · cases hresult : copyTwin t w with
    | mk r u =>
        cases r with
        | error f => exact fun hok => by cases hok
        | ok y =>
            intro _
            refine ⟨y, rfl, (Untouched.asNative u y).trans (.of_eq rfl rfl), fun v hv => ?_⟩
            change ((u.asNative y).vecs.modify i _)[i]? = some v at hv
            rw [Array.getElem?_modify, if_pos rfl] at hv
            obtain ⟨old, -, rfl⟩ := Option.map_eq_some_iff.mp hv
            exact List.mem_append_right _ (List.mem_singleton_self y)

end World

/-- A copy is a new instance that stores what its original stored, and looks as that did, with
all that it holds; a vector appends a copy of what it is given, and neither this nor sharing a
copy writes to an instance.  Whatever is changed from any state on, by either side, what is seen
at the end of a way is as before if none of the instances on the way is changed. -/
theorem copies_keep (w : World) (t : TwinId) :
    (∀ (R : Hold) (y : TwinId), Attained w R → R.Lends t → (World.copyTwin t w).1 = .ok y →
      let u := (World.copyTwin t w).2
      w.twins[y]? = none ∧ w.Untouched u
      ∧ (∃ b, u.twins[y]? = some b ∧ b.stage = .live ∧ b.kind = (w.twin t).kind
        ∧ b.storage = (w.twin t).storage ∧ b.attrs = (w.twin t).attrs)
      ∧ ∀ l path, u.lookAlong (.object y) (l :: path) = w.lookAlong (.object t) (l :: path))
    ∧ (w.Untouched (World.share t w).2
      ∧ ∀ i, (World.vecAppend .copy i t w).1 = .ok () →
        let u := (World.vecAppend .copy i t w).2
        ∃ y, (World.copyTwin t w).1 = .ok y ∧ (World.copyTwin t w).2.Untouched u
          ∧ ∀ v, u.vecs[i]? = some v → y ∈ v.items)
    ∧ ∀ (S : Hold) (cs : List Change) (path : List Look),
      Attained w (S + Change.allSpend cs) → S.Lends t → (∀ c ∈ cs, S.Lends c.target) →
        (∀ i ∈ w.passed (.object t) path, ∀ c ∈ cs, c.target ≠ i) →
          let u := Change.makeAll cs w
          Attained u (S + Change.allGain cs w)
          ∧ u.lookAlong (.object t) path = w.lookAlong (.object t) path := by
  refine ⟨?_, ?_, ?_⟩
  · intro R y hattained hlent hok
    have hcopied : Attained (World.copyTwin t w).2 (0 + R + ofOk Hold.dynamic _) :=
      (Attained.act (hattained.cast (by rw [zero_add, add_zero]))
        (World.copyTwin_safe hlent)).1
    obtain ⟨ids, hreach, -⟩ := hattained
    obtain ⟨ids', hreach', -⟩ := hcopied
    have hw := hreach.invariant
    obtain ⟨a, ha, -⟩ := hlent.right.live hw
    obtain ⟨hnew, b, hb, hstores⟩ := World.copyTwin_stores ha hok
    refine ⟨hnew, .copyTwin w t, ⟨b, hb, ?_⟩, ?_⟩
    · rw [World.twin_eq ha]
      exact hstores
    · exact World.lookAlong_copyTwin hw hreach'.invariant hlent.right hlent.right.left.right hok
  · exact ⟨.share w t, fun i hok => World.vecAppend_copies hok⟩
  · intro S cs path hattained hlent htargets huntargeted
    exact ⟨Change.attained_makeAll cs hattained htargets,
      World.lookAlong_makeAll hattained hlent htargets huntargeted⟩

/-- A copy shares what its original holds by value: an instance of it that is changed is
changed for the copy. -/
theorem copied_member_shared :
    let point : NativeClass :=
      { (default : NativeClass) with
        id := ⟨0⟩, name := "P", members := [⟨"value", .int, .everyone, .int 0⟩] }
    let owner : NativeClass :=
      { (default : NativeClass) with
        id := ⟨1⟩, name := "A", members := [⟨"p", .object "P", .everyone, .null⟩] }
    let w : World :=
      { (default : World) with
        twins := #[.fresh 0 (.native point) .native,
          { Twin.fresh 0 (.native owner) .native with storage := [[.object 0]] }] }
    let u := (World.copyTwin 1 w).2
    (World.copyTwin 1 w).1 = .ok 2
    ∧ u.lookAlong (.object 2) [.attr "p", .attr "value"] = some (.int 0)
    ∧ ((Change.setAttr 0 "value" (.int 7)).make u).lookAlong (.object 2) [.attr "p", .attr "value"]
      = some (.int 7) := by
  -- What is let go of is settled by a recursion on weights, which rfl alone does not open.
  refine ⟨?_, ?_, ?_⟩
  · with_unfolding_all rfl
  · with_unfolding_all rfl
  · with_unfolding_all rfl

end TwinObject
