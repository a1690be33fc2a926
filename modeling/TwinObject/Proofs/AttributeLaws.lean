/-
Laws of attributes.  What is assigned under a name is read under that name, and nothing else
that one reads changes.  An assignment that is refused leaves no trace.  Attributes never have
the name of a member that dynamic code sees, so each of them is what one reads under its name.
-/
import TwinObject.Proofs.Assignments
import TwinObject.Proofs.Locality

namespace TwinObject

open Hold

namespace World

variable {w x u : World} {R S : Hold} {t i : TwinId} {a b : Twin} {name other : String}
  {v : DynValue} {f : Twin → Twin} {lost hs : List Handle}

/-- The handles in what an instance itself has under a name: in the member that dynamic code
sees, or else in the attribute. -/
def ownHandles (w : World) (t : TwinId) (name : String) : List Handle :=
  let a := w.twin t
  match a.layout.findVisibleMember? name a.kind.fromDerived with
  | some p => (a.valueAt? p).elim [] NativeValue.handles
  | none => (a.attrs.get? name).elim [] DynValue.handles

/-- What an assignment comes to that succeeds. -/
structure Assigned (w u : World) (t : TwinId) (name : String) (v : DynValue) : Prop where
  /-- The name reads as the value that a member of its type is bound to, or as the value. -/
  read : match (w.twin t).layout.findVisibleMember? name (w.twin t).kind.fromDerived with
    | some p => ∃ d n, (w.twin t).layout.memberDecl? p = some d ∧ w.Binds u v d.type n
        ∧ (getAttr t name u).1 = .ok n.toDyn
    | none => (getAttr t name u).1 = .ok v
  names : ∀ other, other ≠ name → (getAttr t other u).1 = (getAttr t other w).1
  /-- The instance keeps its class, its owner and its flags. -/
  husk : (u.twin t).husk = (w.twin t).husk
  others : ∀ i a, i ≠ t → w.twins[i]? = some a → ∃ b, u.twins[i]? = some b ∧ a.Rests b
  looks : ∀ i, i ≠ t → i < w.twins.size → u.Alive i → ∀ l, u.look i l = w.look i l
  classes : ∀ id, u.reachesClass id = true → u.classes[id]? = w.classes[id]?
  /-- What is released is reached from what was there before, or from the value that was given
  away. -/
  released : ∀ i, w.Alive i → ¬u.Alive i → w.Reached u (w.ownHandles t name ++ v.handles) i
  /-- If the value is held by others too, it is reached from what was there before. -/
  freed : (∀ h ∈ v.handles, u.Alive h.twin) → ∀ i, w.Alive i → ¬u.Alive i →
    w.Reached u (w.ownHandles t name) i

theorem ownHandles_stored (ha : w.twins[t]? = some a) {h : Handle}
    (hh : h ∈ w.ownHandles t name) : h ∈ w.rootBag := by
  refine mem_rootBag ha ?_
  rw [ownHandles, twin_eq ha] at hh
  split at hh
  · rename_i p hfind
    cases hvalue : a.valueAt? p with
    | none => rw [hvalue] at hh; cases hh
    | some n =>
        rw [hvalue] at hh
        exact Twin.mem_contents_of_value hvalue hh
  · cases hget : a.attrs.get? name with
    | none => rw [hget] at hh; cases hh
    | some r =>
        rw [hget] at hh
        exact List.mem_append_right _ (Attributes.mem_handles hget hh)

/-- What one reads under a name that no visible member has is the attribute, if there is one. -/
theorem getAttr_of_attr (ha : w.twins[t]? = some a)
    (hfind : a.layout.findVisibleMember? name a.kind.fromDerived = none)
    (hget : a.attrs.get? name = some v) : (getAttr t name w).1 = .ok v := by
  simp [getAttr, findAttr?, twin_eq ha, hfind, hget]

/-- Only the class of a twin, the member that is seen and the attribute matter. -/
theorem findAttr?_setTwin (ha : w.twins[t]? = some a) (hkind : b.kind = a.kind)
    (hvalue : ∀ p, a.layout.findVisibleMember? name a.kind.fromDerived = some p →
      b.valueAt? p = a.valueAt? p)
    (hattr : b.attrs.get? name = a.attrs.get? name) :
    (w.setTwin t b).findAttr? t name = w.findAttr? t name := by
  have hb : (w.setTwin t b).twins[t]? = some b := by rw [getElem?_setTwin ha, if_pos rfl]
  have hlayout : b.layout = a.layout := by rw [Twin.layout, hkind, Twin.layout]
  rw [findAttr?, findAttr?, twin_eq ha, twin_eq hb, hlayout, hkind, hattr]
  cases hfind : a.layout.findVisibleMember? name a.kind.fromDerived with
  | some p => simp only [hvalue p hfind]
  | none => cases a.kind <;> rfl

namespace Writes

/-- A name under which the instance itself has what it had reads as it did. -/
theorem getAttr_eq (h : w.Writes x t f lost u) (ha : w.twins[t]? = some a) (halive : u.Alive t)
    (hvalue : ∀ p, a.layout.findVisibleMember? name a.kind.fromDerived = some p →
      (f a).valueAt? p = a.valueAt? p)
    (hattr : (f a).attrs.get? name = a.attrs.get? name) :
    (getAttr t name u).1 = (getAttr t name w).1 := by
  have hkind : (f a).kind = a.kind :=
    congrArg (·.kind) (h.rewrites.husk a : (f a).husk = a.husk)
  have hfind : u.findAttr? t name = w.findAttr? t name := by
    rw [← look_attr, h.look ha halive, look_attr, findAttr?_setTwin ha hkind hvalue hattr]
  obtain ⟨c, hc, -, hbare⟩ := h.itself ha halive
  have hnames : u.className t = w.className t := by
    have hkind' : c.kind = (f a).kind := congrArg (·.kind) (hbare : c.bare = _)
    simp [className, twin?, ha, hc, Twin.name, hkind', hkind]
  simp only [getAttr, hfind, noAttribute, hnames]
  cases w.findAttr? t name <;> rfl

/-- A write to what an instance itself has under one name is an assignment to that name. -/
theorem assigned (h : w.Writes x t f lost u) (hattained : Attained w R) (ha : w.twins[t]? = some a)
    (halive : u.Alive t) (hlost : ∀ h ∈ lost, h ∈ w.ownHandles t name ∨ h ∈ v.handles)
    (hgiven : ∀ h ∈ v.handles, h ∈ R.handles)
    (hread : match a.layout.findVisibleMember? name a.kind.fromDerived with
      | some p => ∃ d n, a.layout.memberDecl? p = some d ∧ w.Binds u v d.type n
          ∧ (f a).valueAt? p = some n
      | none => (f a).attrs.get? name = some v)
    (hvalue : ∀ other p, other ≠ name →
      a.layout.findVisibleMember? other a.kind.fromDerived = some p →
        (f a).valueAt? p = a.valueAt? p)
    (hattr : ∀ other, other ≠ name → (f a).attrs.get? other = a.attrs.get? other) :
    w.Assigned u t name v := by
  obtain ⟨c, hc, hlive, hbare⟩ := h.itself ha halive
  have hhusk : c.husk = a.husk := (Twin.husk_of_bare hbare).trans (h.rewrites.husk a)
  have hkind : c.kind = a.kind := congrArg (·.kind) (hhusk : c.husk = a.husk)
  have hlayout : ∀ name, c.layout.findVisibleMember? name c.kind.fromDerived
      = a.layout.findVisibleMember? name a.kind.fromDerived := fun name => by
    rw [Twin.layout, hkind, Twin.layout]
  have hstored : ∀ h ∈ w.ownHandles t name, h ∈ w.rootBag + R.handles := fun h hh =>
    Multiset.mem_add.mpr (.inl (ownHandles_stored ha hh))
  refine ⟨?_, fun other hother => ?_, ?_, fun i b hi hb => h.others hi hb,
    fun i hi hthere hlater l => ?_, fun id hreaches => h.classes hreaches, fun i hi hgone => ?_,
    fun hkept i hi hgone => ?_⟩
  · rw [twin_eq ha]
    cases hfind : a.layout.findVisibleMember? name a.kind.fromDerived with
    | some p =>
        rw [hfind] at hread
        obtain ⟨d, n, hdecl, hbinds, hn⟩ := hread
        have hthere : c.valueAt? p = some n := (Twin.valueAt_of_bare hbare p).trans hn
        exact ⟨d, n, hdecl, hbinds, getAttr_of_value hc ((hlayout name).trans hfind) hthere⟩
    | none =>
        rw [hfind] at hread
        have hattrs : c.attrs = (f a).attrs := congrArg (·.attrs) (hbare : c.bare = _)
        exact getAttr_of_attr hc ((hlayout name).trans hfind) (hattrs ▸ hread)
  · exact h.getAttr_eq ha halive (fun p hfind => hvalue other p hother hfind) (hattr other hother)
  · rw [twin_eq hc, twin_eq ha, hhusk]
  · have hi' := Array.getElem?_eq_getElem hthere
    obtain ⟨b, hb, hrests⟩ := h.others hi hi'
    obtain ⟨b', hb', hlive'⟩ := hlater
    cases hb.symm.trans hb'
    exact look_congr hi' hb hrests.kind (hrests.storage hlive') (hrests.attrs hlive')
      (fun d hd => h.classes (reachesClass_of_alive hb hlive' (hrests.kind ▸ hd))) l
  · refine h.released halive (fun h hh => .inl (List.mem_append.mpr (hlost h hh)))
      (fun i hreached => ?_) hi hgone
    refine hreached.lt_size hattained fun h hh => ?_
    rcases List.mem_append.mp hh with hh | hh
    · exact hstored h hh
    · exact Multiset.mem_add.mpr (.inr (hgiven h hh))
  · exact h.released halive (fun h hh => (hlost h hh).imp_right (hkept h))
      (fun i hreached => hreached.lt_size hattained hstored) hi hgone

end Writes

/-- An assignment that succeeds is one to its name alone. -/
theorem assigned_of_setAttr (hattained : Attained w (S + v.hold)) (hlent : Lends S t)
    (hok : (setAttr t name v w).1 = .ok ()) : w.Assigned (setAttr t name v w).2 t name v := by
  obtain ⟨a, ha, -⟩ := hattained.alive_of_lent hlent.left
  have halive := (hattained.setAttr hlent name).alive_of_lent hlent
  have hgiven : ∀ h ∈ v.handles, h ∈ (S + v.hold).handles := fun h hh => by
    rw [Hold.handles, Multiset.filterMap_add]
    refine Multiset.mem_add.mpr (.inr ?_)
    rw [DynValue.hold, ← Hold.handles, handles_ofHandles]
    exact Multiset.mem_coe.mpr hh
  cases hfind : a.layout.findVisibleMember? name a.kind.fromDerived with
  | none =>
      obtain ⟨-, hwrites⟩ := setAttr_attr v ha hfind
      refine hwrites.assigned hattained ha halive (fun h hh => .inl ?_) hgiven ?_
        (fun _ _ _ _ => rfl) fun other hother => ?_
      · rw [ownHandles, twin_eq ha, hfind]
        exact hh
      · rw [hfind]
        exact (Attributes.get?_put_attribute name name v a.attrs).trans (if_pos rfl)
      · exact (Attributes.get?_put_attribute name other v a.attrs).trans (if_neg hother)
  | some p =>
      obtain ⟨d, n, x, old, hdecl, -, hbinds, hold, hwrites⟩ :=
        hattained.setAttr_binds hlent ha hfind hok
      refine hwrites.assigned hattained ha halive (fun h hh => ?_) hgiven ?_
        (fun other q hother hfind' => ?_) fun _ _ => rfl
      · have hown : w.ownHandles t name = old.handles := by
          simp [ownHandles, twin_eq ha, hfind, hold]
        rw [hown]
        exact List.mem_append.mp hh
      · rw [hfind]
        exact ⟨d, n, hdecl, hbinds, by rw [Twin.valueAt_setValue hold, if_pos rfl]⟩
      · -- A place is that of a member of one name.
        rw [Twin.valueAt_setValue hold, if_neg]
        rintro rfl
        obtain ⟨e, he, hename, -⟩ := Layout.memberDecl_of_find hfind
        obtain ⟨e', he', hename', -⟩ := Layout.memberDecl_of_find hfind'
        cases he.symm.trans he'
        exact hother (hename'.symm.trans hename)

/-- The laws of attributes in a state in which code is running that holds `R`. -/
structure LawfulAttributes (w : World) (R : Hold) : Prop where
  assigned : ∀ t name (v : DynValue) S, R = S + v.hold → Lends S t →
    (setAttr t name v w).1 = .ok () → w.Assigned (setAttr t name v w).2 t name v
  /-- What cannot be assigned is let go of, and that is all. -/
  refused : ∀ t name (v : DynValue) e, (setAttr t name v w).1 = .error e →
    (setAttr t name v w).2 = w.drop v.handles
  /-- Who still holds what was given finds everything as it was. -/
  unchanged : ∀ t name (v : DynValue) e, LendsAll R v.handles →
    (setAttr t name v (w.retainAll v.handles)).1 = .error e →
      (setAttr t name v (w.retainAll v.handles)).2 = w
  /-- No attribute has the name of a member that dynamic code sees, and so all are seen. -/
  seen : ∀ t a name v, w.twins[t]? = some a → a.attrs.get? name = some v →
    a.layout.findVisibleMember? name a.kind.fromDerived = none ∧ (getAttr t name w).1 = .ok v

end World

theorem Attained.lawfulAttributes {w : World} {R : Hold} (hattained : Attained w R) :
    w.LawfulAttributes R where
  assigned t name v S hR hlent hok := World.assigned_of_setAttr (hR ▸ hattained) hlent hok
  refused t name v e herror := World.setAttr_error herror
  unchanged t name v e hlent herror := by
    rw [World.setAttr_error herror, hattained.drop_retainAll hlent]
  seen t a name v ha hget := by
    have htidy : a.Tidy := hattained.reached fun _ hreach => hreach.invariant.tidied t a ha
    have hhidden : a.layout.findVisibleMember? name a.kind.fromDerived = none := by
      cases hfind : a.layout.findVisibleMember? name a.kind.fromDerived with
      | none => rfl
      | some p => exact nomatch (htidy name p hfind).symm.trans hget
    exact ⟨hhidden, World.getAttr_of_attr ha hhidden hget⟩

open Session in
/-- The laws of attributes hold after every history, and in every state that running code gets
to. -/
theorem attributes_lawful :
    (∀ (depth : Nat) (steps : List Step),
      let s := after (.nested .memo depth) steps
      s.world.LawfulAttributes s.waiting)
    ∧ ∀ (w : World) (R : Hold), Attained w R → w.LawfulAttributes R :=
  ⟨fun depth steps => (attained_after depth steps).lawfulAttributes,
    fun _ _ hattained => hattained.lawfulAttributes⟩

open World Gauge in
/-- A gauge is given a note, and shows its level as before. -/
theorem attributes_lawful_gauge :
    (setAttr 0 "note" (.str "low") empty).1 = .ok ()
    ∧ (getAttr 0 "note" (setAttr 0 "note" (.str "low") empty).2).1 = .ok (.str "low")
    ∧ (getAttr 0 "level" (setAttr 0 "note" (.str "low") empty).2).1 = .ok (.int 0) := by
  have hok : (setAttr 0 "note" (.str "low") empty).1 = .ok () := by with_unfolding_all rfl
  have hassigned := (attributes_lawful.2 empty _ empty_attained).assigned 0 "note" (.str "low") _
    (add_zero _).symm lent hok
  exact ⟨hok, hassigned.read, (hassigned.names "level" (by decide)).trans rfl⟩

end TwinObject
