/-
Containers and variables.  A group counts the pointers that variables and running
code hold, every vector and group that something refers to exists, and no name is
bound twice.
-/
import TwinObject.Proofs.Transition

namespace TwinObject

namespace Binding

/-- The group that a variable holds a pointer of. -/
def groups : Binding → Multiset Nat
  | shared i => {i}
  | _ => 0

def vecs : Binding → Multiset Nat
  | vec i => {i}
  | _ => 0

end Binding

namespace World

/-- The groups that variables hold pointers of. -/
def varGroups (w : World) : Multiset Nat :=
  w.scope.vars.total Binding.groups

def varVecs (w : World) : Multiset Nat :=
  w.scope.vars.total Binding.vecs

variable (w : World)

@[simp] theorem groups_bindingHold (b : Binding) : (w.bindingHold b).groups = b.groups := by
  cases b <;> simp [bindingHold, Binding.groups]

@[simp] theorem vecs_bindingHold (b : Binding) : (w.bindingHold b).vecs = b.vecs := by
  cases b <;> simp [bindingHold, Binding.vecs]

theorem groups_varHold (x : String) : (w.varHold x).groups = (w.var? x).elim 0 Binding.groups := by
  cases hold : w.var? x <;> simp [varHold, hold]

theorem vecs_varHold (x : String) : (w.varHold x).vecs = (w.var? x).elim 0 Binding.vecs := by
  cases hold : w.var? x <;> simp [varHold, hold]

end World

/-- What holds of the containers of a state. -/
structure Contained (w : World) (R : Hold) : Prop where
  names : (w.scope.vars.map Prod.fst).Nodup
  counted : ∀ (i : Nat) (g : SharedGroup), w.groups[i]? = some g →
    g.count = (w.varGroups + R.groups).count i
  groups : ∀ i ∈ w.varGroups, i < w.groups.size
  targets : ∀ p ∈ R.pointers, ∃ g, w.groups[p.1]? = some g ∧ g.target = p.2
  vecs : ∀ i ∈ w.varVecs + R.vecs, i < w.vecs.size

namespace Contained

variable {w w' : World} {R R' : Hold}

theorem initial : Contained .initial 0 where
  names := by simp [World.initial, World.declareInterp]
  counted i g hg := by simp [World.initial, World.declareInterp] at hg
  groups i hi := by simp [World.varGroups, World.initial, World.declareInterp, Bindings.total] at hi
  targets p hp := by simp at hp
  vecs i hi := by simp [World.varVecs, World.initial, World.declareInterp, Bindings.total] at hi

/-- Variables stay as they are; what changes in containers fits what is held of
them. -/
theorem of_vars_eq (hc : Contained w R) (hvars : w'.scope.vars = w.scope.vars)
    (hcounted : ∀ (i : Nat) (g : SharedGroup), w'.groups[i]? = some g →
      g.count = (w.varGroups + R'.groups).count i)
    (hgroups : w.groups.size ≤ w'.groups.size)
    (htargets : ∀ p ∈ R'.pointers, ∃ g, w'.groups[p.1]? = some g ∧ g.target = p.2)
    (hvecs : ∀ i ∈ w.varVecs + R'.vecs, i < w'.vecs.size) : Contained w' R' where
  names := hvars ▸ hc.names
  counted i g hg := by
    rw [World.varGroups, hvars]
    exact hcounted i g hg
  groups i hi := by
    rw [World.varGroups, hvars] at hi
    exact Nat.lt_of_lt_of_le (hc.groups i hi) hgroups
  targets := htargets
  vecs i hi := by
    rw [World.varVecs, hvars] at hi
    exact hvecs i hi

/-- Containers and variables stay as they are, and so does what is held of
them. -/
theorem of_eq (hc : Contained w R) (hgroups : w'.groups = w.groups)
    (hvecs : w'.vecs.size = w.vecs.size) (hvars : w'.scope.vars = w.scope.vars)
    (hpointers : R'.pointers = R.pointers) (hheld : R'.vecs = R.vecs) : Contained w' R' := by
  refine hc.of_vars_eq hvars ?_ (by rw [hgroups]) ?_ ?_
  · rw [hgroups, Hold.groups, hpointers]
    exact hc.counted
  · rw [hgroups, hpointers]
    exact hc.targets
  · rw [hvecs, hheld]
    exact hc.vecs

theorem newVec (hc : Contained w R) (element : String) :
    Contained { w with vecs := w.vecs.push ⟨element, [], 1⟩ } (R + {.vec w.vecs.size}) := by
  refine hc.of_vars_eq rfl ?_ (Nat.le_refl _) ?_ ?_
  · simpa using hc.counted
  · simpa using hc.targets
  · intro i hi
    have hcases : i ∈ w.varVecs + R.vecs ∨ i = w.vecs.size := by
      simpa [or_assoc] using hi
    rw [Array.size_push]
    rcases hcases with hold | rfl
    · exact Nat.lt_succ_of_lt (hc.vecs i hold)
    · exact Nat.lt_succ_self _

theorem holdVec (hc : Contained w R) {i : Nat} (hi : i < w.vecs.size) :
    Contained (World.holdVec i w) (R + {.vec i}) := by
  refine hc.of_vars_eq rfl ?_ (Nat.le_refl _) ?_ ?_
  · simpa [World.holdVec] using hc.counted
  · simpa [World.holdVec] using hc.targets
  · intro j hj
    have hcases : j ∈ w.varVecs + R.vecs ∨ j = i := by
      simpa [or_assoc] using hj
    rw [World.holdVec, Array.size_modify]
    rcases hcases with hold | rfl
    · exact hc.vecs j hold
    · exact hi

theorem leaveVec {i : Nat} (hc : Contained w (R + {.vec i})) :
    Contained { w with
      vecs := w.vecs.modify i fun v => { v with holders := v.holders - 1 } } R := by
  refine hc.of_vars_eq rfl ?_ (Nat.le_refl _) ?_ ?_
  · simpa using hc.counted
  · simpa using hc.targets
  · intro j hj
    rw [Array.size_modify]
    refine hc.vecs j ?_
    simp only [Multiset.filterMap_add, ← add_assoc]
    exact Multiset.mem_add.mpr (Or.inl hj)

/-- An index that is no group's yet occurs nowhere. -/
theorem count_fresh (hc : Contained w R) :
    (w.varGroups + R.groups).count w.groups.size = 0 := by
  rw [Multiset.count_eq_zero]
  intro hmem
  rcases Multiset.mem_add.mp hmem with hvar | hheld
  · exact Nat.lt_irrefl _ (hc.groups _ hvar)
  · obtain ⟨p, hp, hsize⟩ := Multiset.mem_map.mp hheld
    obtain ⟨g, hg, -⟩ := hc.targets p hp
    rw [hsize] at hg
    exact Nat.lt_irrefl _ (Array.getElem?_eq_some_iff.mp hg).1

theorem newGroup {t : TwinId} (hc : Contained w (R + {.handle (.native t)})) :
    Contained { w with groups := w.groups.push ⟨t, 1⟩ } (R + {.shared w.groups.size t}) := by
  have hfresh := hc.count_fresh
  simp only [Hold.groups_add, Hold.groups_single, Token.pointer?, Option.elim_none,
    add_zero] at hfresh
  refine hc.of_vars_eq rfl ?_ (by simp) ?_ ?_
  · intro i g hg
    rw [Array.getElem?_push] at hg
    by_cases hi : i = w.groups.size
    · rw [if_pos hi] at hg
      cases hg
      subst hi
      simp only [Multiset.count_add] at hfresh
      simp only [Hold.groups_add, Hold.groups_single, Token.pointer?, Option.elim_some,
        Multiset.count_add, Multiset.count_singleton_self]
      omega
    · rw [if_neg hi] at hg
      simpa [hi] using hc.counted i g hg
  · intro p hp
    have hcases : p ∈ R.pointers ∨ p = (w.groups.size, t) := by
      simpa using hp
    rcases hcases with hold | rfl
    · obtain ⟨g, hg, htarget⟩ := hc.targets p (by simpa using hold)
      have hlt := (Array.getElem?_eq_some_iff.mp hg).1
      exact ⟨g, by rw [Array.getElem?_push, if_neg (Nat.ne_of_lt hlt)]; exact hg, htarget⟩
    · exact ⟨⟨t, 1⟩, by simp, rfl⟩
  · intro i hi
    exact hc.vecs i (by simpa using hi)

/-- The count of one group changes with the pointers that are held of it. -/
theorem setCount (hc : Contained w R) {i n : Nat} {g : SharedGroup} (hg : w.groups[i]? = some g)
    (hcount : ∀ j, R'.groups.count j + (if i = j then g.count else 0)
      = R.groups.count j + if i = j then n else 0)
    (hpointers : ∀ p ∈ R'.pointers, p ∈ R.pointers ∨ p = (i, g.target))
    (hvecs : R'.vecs = R.vecs) :
    Contained { w with groups := w.groups.setIfInBounds i { g with count := n } } R' := by
  have hlt := (Array.getElem?_eq_some_iff.mp hg).1
  refine hc.of_vars_eq rfl ?_ (by simp) ?_ (by rw [hvecs]; exact hc.vecs)
  · intro j b hb
    have hj := hcount j
    rw [Array.getElem?_setIfInBounds] at hb
    rw [Multiset.count_add]
    by_cases hij : i = j
    · subst hij
      have hold := hc.counted i g hg
      rw [Multiset.count_add] at hold
      simp only [if_true, hlt, Option.some.injEq] at hb hj
      subst hb
      dsimp only
      omega
    · rw [if_neg hij] at hb
      have hold := hc.counted j b hb
      simp only [hij, if_false, Multiset.count_add] at hold hj
      omega
  · intro p hp
    rcases hpointers p hp with hold | rfl
    · obtain ⟨b, hb, htarget⟩ := hc.targets p hold
      rw [Array.getElem?_setIfInBounds]
      by_cases hip : i = p.1
      · subst hip
        rw [hg] at hb
        cases hb
        exact ⟨{ g with count := n }, by simp [hlt], htarget⟩
      · exact ⟨b, by rw [if_neg hip]; exact hb, htarget⟩
    · exact ⟨{ g with count := n }, by simp [hlt], rfl⟩

theorem cloneShared (hc : Contained w R) {i : Nat} {g : SharedGroup} (hg : w.groups[i]? = some g) :
    Contained (World.cloneShared i w) (R + {.shared i g.target}) := by
  rw [World.cloneShared, modify_eq_setIfInBounds hg]
  refine hc.setCount hg ?_ ?_ (by simp)
  · intro j
    by_cases hij : i = j
    · simp [hij]
      omega
    · have hji : ¬j = i := fun heq => hij heq.symm
      simp [hij, hji]
  · intro p hp
    simpa using hp

theorem leaveGroup {i : Nat} {g : SharedGroup} (hc : Contained w (R + {.shared i g.target}))
    (hg : w.groups[i]? = some g) :
    Contained { w with groups := w.groups.setIfInBounds i { g with count := g.count - 1 } }
      (R + if g.count = 1 then {.handle (.native g.target)} else 0) := by
  have hcounted := hc.counted i g hg
  have hgiven : (R + if g.count = 1 then {.handle (.native g.target)} else 0 : Hold).pointers
      = R.pointers := by
    split <;> simp
  have hgroups : (R + if g.count = 1 then {.handle (.native g.target)} else 0 : Hold).groups
      = R.groups := by
    split <;> simp
  refine hc.setCount hg ?_ ?_ (by split <;> simp)
  · intro j
    rw [hgroups]
    by_cases hij : i = j
    · subst hij
      simp at hcounted ⊢
      omega
    · have hji : ¬j = i := fun heq => hij heq.symm
      simp [hij, hji]
  · intro p hp
    rw [hgiven] at hp
    exact Or.inl (by simpa using Or.inl hp)

/-- Binding or unbinding a name moves what the variable holds. -/
theorem setVars (hc : Contained w R) {vars : Bindings Binding} (hnames : (vars.map Prod.fst).Nodup)
    (hgroups : (w.setVars vars).varGroups + R'.groups
      = w.varGroups + R.groups)
    (hpointers : ∀ p ∈ R'.pointers, p ∈ R.pointers ∨ ∃ g, w.groups[p.1]? = some g ∧ g.target = p.2)
    (hvecs : (w.setVars vars).varVecs + R'.vecs = w.varVecs + R.vecs) :
    Contained (w.setVars vars) R' where
  names := hnames
  counted i g hg := by
    rw [hgroups]
    exact hc.counted i g hg
  groups i hi := by
    have hmem : i ∈ w.varGroups + R.groups := by
      rw [← hgroups]
      exact Multiset.mem_add.mpr (Or.inl hi)
    rcases Multiset.mem_add.mp hmem with hvar | hheld
    · exact hc.groups i hvar
    · obtain ⟨p, hp, rfl⟩ := Multiset.mem_map.mp hheld
      obtain ⟨g, hg, -⟩ := hc.targets p hp
      exact (Array.getElem?_eq_some_iff.mp hg).1
  targets p hp := by
    rcases hpointers p hp with hold | hnew
    · exact hc.targets p hold
    · exact hnew
  vecs i hi := hc.vecs i (hvecs ▸ hi)

/-- The pointers that a variable holds are pointers of groups that exist. -/
theorem targets_varHold (hc : Contained w R) {x : String} {p : Nat × TwinId}
    (hp : p ∈ (w.varHold x).pointers) : ∃ g, w.groups[p.1]? = some g ∧ g.target = p.2 := by
  rw [World.varHold] at hp
  cases hold : w.var? x with
  | none => simp [hold] at hp
  | some b =>
      cases b with
      | shared i =>
          have hlt := hc.groups i (Bindings.mem_total hold (Multiset.mem_singleton_self i))
          obtain rfl : p = (i, (w.group i).target) := by
            simpa [hold, World.bindingHold] using hp
          exact ⟨w.groups[i], by simp [hlt], by simp [World.group, hlt]⟩
      | _ => simp [hold, World.bindingHold] at hp

theorem bind (x : String) (b : Binding) (hc : Contained w (R + w.bindingHold b)) :
    Contained (w.setVars (w.scope.vars.put x b)) (R + w.varHold x) := by
  refine hc.setVars (Bindings.nodup_names_put b hc.names) ?_ ?_ ?_
  · have hput := Bindings.total_put Binding.groups x b w.scope.vars
    simp only [Hold.groups_add, World.groups_varHold, World.groups_bindingHold]
    exact exchange hput (add_comm _ _) _
  · intro p hp
    rcases Hold.mem_pointers_add.mp hp with hold | hnew
    · exact Or.inl (Hold.mem_pointers_add.mpr (Or.inl hold))
    · exact Or.inr (hc.targets_varHold hnew)
  · have hput := Bindings.total_put Binding.vecs x b w.scope.vars
    simp only [Multiset.filterMap_add, World.vecs_varHold, World.vecs_bindingHold]
    exact exchange hput (add_comm _ _) _

theorem unbind (x : String) (hc : Contained w R) :
    Contained (w.setVars (w.scope.vars.erase x)) (R + w.varHold x) := by
  refine hc.setVars (Bindings.nodup_names_erase hc.names) ?_ ?_ ?_
  · have herase := Bindings.total_erase Binding.groups x hc.names
    simp only [Hold.groups_add, World.groups_varHold]
    rw [World.varGroups, World.varGroups, ← herase, World.var?, World.setVars]
    abel
  · intro p hp
    rcases Hold.mem_pointers_add.mp hp with hold | hnew
    · exact Or.inl hold
    · exact Or.inr (hc.targets_varHold hnew)
  · have herase := Bindings.total_erase Binding.vecs x hc.names
    simp only [Multiset.filterMap_add, World.vecs_varHold]
    rw [World.varVecs, World.varVecs, ← herase, World.var?, World.setVars]
    abel

/-- Every step keeps the containers in order. -/
theorem alike (hc : Contained w R) (halike : w.Alike w') : Contained w' R :=
  hc.of_eq halike.groups (by rw [halike.vecs]) halike.vars rfl rfl

theorem step (hc : Contained w R) (hstep : Transition w R w' R') : Contained w' R' := by
  cases hstep with
  | quiet halike => exact hc.alike halike
  | note text => exact hc.of_eq rfl rfl rfl rfl rfl
  | panic => exact hc.of_eq rfl rfl rfl rfl rfl
  | throw t => exact hc.of_eq rfl rfl rfl rfl rfl
  | recover => exact hc.of_eq rfl rfl rfl rfl rfl
  | enter => exact hc.of_eq rfl rfl rfl rfl rfl
  | passGate => exact hc.of_eq rfl rfl rfl rfl rfl
  | retain hheld => exact hc.of_eq rfl rfl rfl (by simp) (by simp)
  | letGo h =>
      obtain ⟨twins, journal, hframe⟩ := w.letGo_frame h
      rw [hframe]
      exact hc.of_eq rfl rfl rfl (by simp) (by simp)
  | depart htwin hstage => exact hc.of_eq rfl rfl rfl rfl rfl
  | endClass id =>
      obtain ⟨classes, hframe, -⟩ := w.endClass_frame id
      rw [hframe]
      exact hc.of_eq rfl rfl rfl (by simp) (by simp)
  | endNative id =>
      obtain ⟨declared, hframe⟩ := w.endNative_frame id
      rw [hframe]
      exact hc.of_eq rfl rfl rfl (by simp) (by simp)
  | create hnative hdynamic hstage => exact hc.of_eq rfl rfl rfl (by simp) (by simp)
  | store htwin hstage storage attrs owner moved hshape taken given hbag =>
      exact hc.of_eq rfl rfl rfl (by simp) (by simp)
  | fill htwin hfree => exact hc.of_eq rfl rfl rfl (by simp) (by simp)
  | unfill t constructed => exact hc.of_eq rfl rfl rfl (by simp) (by simp)
  | build c => exact hc.of_eq rfl rfl rfl (by simp) (by simp)
  | raze c => exact hc.of_eq rfl rfl rfl (by simp) (by simp)
  | @mark _ t _ index b htwin hstage hfree hbase hagain =>
      obtain ⟨twins, journal, hframe⟩ := w.markBuilt_frame t index b.base
      rw [hframe]
      exact hc.of_eq rfl rfl rfl (by simp) (by simp)
  | storeClass hs attrs taken given hbag => exact hc.of_eq rfl rfl rfl (by simp) (by simp)
  | learn hs hslot hunknown => exact hc.of_eq rfl rfl rfl rfl rfl
  | newVec element => exact hc.newVec element
  | holdVec hi => exact hc.holdVec hi
  | leaveVec i => exact hc.leaveVec
  | storeVec hv items taken given hbag =>
      exact hc.of_eq rfl (by simp [World.setItems]) rfl (by simp) (by simp)
  | newGroup t => exact hc.newGroup
  | cloneShared hg hcount => exact hc.cloneShared hg
  | leaveGroup hg => exact hc.leaveGroup hg
  | bind x b => exact hc.bind x b
  | unbind x => exact hc.unbind x
  | spawn hinterp code => exact hc.of_eq rfl rfl rfl rfl rfl
  | endThread hth hstate result => exact hc.of_eq rfl rfl rfl (by simp) (by simp)
  | takeResult hth => exact hc.of_eq rfl rfl rfl (by simp) (by simp)
  | declare hid hparents hdistinct => exact hc.of_eq rfl rfl rfl (by simp) (by simp)
  | nameNative label hkeeps => exact hc.of_eq rfl rfl rfl rfl rfl
  | register hid hbases hinterp attrs => exact hc.of_eq rfl rfl rfl (by simp) (by simp)
  | nameClass label hknows => exact hc.of_eq rfl rfl rfl rfl rfl
  | lend hkeeps => exact hc.of_eq rfl rfl rfl (by simp) (by simp)
  | giveBack k => exact hc.of_eq rfl rfl rfl (by simp) (by simp)

end Contained

end TwinObject
