/-
What running code holds, as a multiset of tokens, and the handles at rest in a
world, as a multiset too.  The order in which things are held or stored never
counts, so that taking, storing and giving back are additions here.
-/
import Mathlib.Algebra.Order.Group.Multiset
import Mathlib.Data.Multiset.Filter
import Mathlib.Tactic.Abel
import TwinObject.Run

namespace TwinObject

/-- All that code at work holds, on all threads together. -/
abbrev Hold := Multiset Token

namespace Token

@[simp] def handle? : Token → Option Handle
  | handle h => some h
  | _ => none

@[simp] def kind? : Token → Option Kind
  | kind k => some k
  | _ => none

@[simp] def vec? : Token → Option Nat
  | vec i => some i
  | _ => none

@[simp] def pointer? : Token → Option (Nat × TwinId)
  | shared i t => some (i, t)
  | _ => none

@[simp] def segment? : Token → Option NativeId
  | segment id => some id
  | _ => none

@[simp] def filling? : Token → Option (TwinId × List Bool)
  | storage t constructed => some (t, constructed)
  | _ => none

end Token

namespace Hold

/-- The handles among the tokens. -/
abbrev handles (R : Hold) : Multiset Handle :=
  R.filterMap Token.handle?

/-- The classes that code at work refers to. -/
abbrev kinds (R : Hold) : Multiset Kind :=
  R.filterMap Token.kind?

abbrev vecs (R : Hold) : Multiset Nat :=
  R.filterMap Token.vec?

/-- The pointers of groups, each with the target of its group. -/
abbrev pointers (R : Hold) : Multiset (Nat × TwinId) :=
  R.filterMap Token.pointer?

/-- The segments that are built, but belong to no constructed base yet. -/
abbrev segments (R : Hold) : Multiset NativeId :=
  R.filterMap Token.segment?

/-- The twins whose storage is being filled, with their constructed bases. -/
abbrev fillings (R : Hold) : Multiset (TwinId × List Bool) :=
  R.filterMap Token.filling?

@[simp] theorem filterMap_single {α β : Type} (f : α → Option β) (a : α) :
    Multiset.filterMap f {a} = (f a).elim 0 ({·}) := by
  rw [← Multiset.cons_zero, Multiset.filterMap_cons]
  cases f a <;> rfl

def ofHandles (hs : List Handle) : Hold :=
  ↑(hs.map Token.handle)

def ofSegments (ids : List NativeId) : Hold :=
  ↑(ids.map Token.segment)

@[simp] theorem ofHandles_nil : ofHandles [] = 0 := rfl

@[simp] theorem ofHandles_singleton (h : Handle) : ofHandles [h] = {Token.handle h} := rfl

@[simp] theorem ofHandles_append (hs hs' : List Handle) :
    ofHandles (hs ++ hs') = ofHandles hs + ofHandles hs' := by
  simp [ofHandles]

theorem ofHandles_cons (h : Handle) (hs : List Handle) :
    ofHandles (h :: hs) = {Token.handle h} + ofHandles hs := by
  rw [← ofHandles_singleton, ← ofHandles_append, List.singleton_append]

theorem ofHandles_perm {hs hs' : List Handle} (hperm : hs.Perm hs') :
    ofHandles hs = ofHandles hs' :=
  Multiset.coe_eq_coe.mpr (hperm.map _)

@[simp] theorem ofSegments_nil : ofSegments [] = 0 := rfl

@[simp] theorem ofSegments_append (ids ids' : List NativeId) :
    ofSegments (ids ++ ids') = ofSegments ids + ofSegments ids' := by
  simp [ofSegments]

@[simp] theorem filterMap_ofHandles {β : Type} (f : Token → Option β) (hs : List Handle) :
    Multiset.filterMap f (ofHandles hs) = Multiset.filterMap (fun h => f (.handle h)) ↑hs := by
  rw [ofHandles, Multiset.filterMap_coe, Multiset.filterMap_coe, List.filterMap_map]
  rfl

@[simp] theorem filterMap_ofSegments {β : Type} (f : Token → Option β) (ids : List NativeId) :
    Multiset.filterMap f (ofSegments ids)
      = Multiset.filterMap (fun id => f (.segment id)) ↑ids := by
  rw [ofSegments, Multiset.filterMap_coe, Multiset.filterMap_coe, List.filterMap_map]
  rfl

theorem mem_pointers_add {R R' : Hold} {p : Nat × TwinId} :
    p ∈ (R + R').pointers ↔ p ∈ R.pointers ∨ p ∈ R'.pointers := by
  rw [pointers, Multiset.filterMap_add, Multiset.mem_add]

/-- The groups of which a pointer is held, one entry for each pointer. -/
def groups (R : Hold) : Multiset Nat :=
  R.pointers.map Prod.fst

@[simp] theorem groups_add (R R' : Hold) : groups (R + R') = groups R + groups R' := by
  simp only [groups, Multiset.filterMap_add, Multiset.map_add]

@[simp] theorem groups_single (t : Token) : groups {t} = t.pointer?.elim 0 ({·.1}) := by
  rw [groups, pointers, filterMap_single]
  cases t.pointer? <;> rfl

@[simp] theorem groups_zero : groups 0 = 0 := rfl

@[simp] theorem groups_ofHandles (hs : List Handle) : groups (ofHandles hs) = 0 := by
  simp [groups]

/-- The twins whose storage is being filled. -/
def filled (R : Hold) : Multiset TwinId :=
  R.fillings.map Prod.fst

@[simp] theorem filled_add (R R' : Hold) : filled (R + R') = filled R + filled R' := by
  simp only [filled, Multiset.filterMap_add, Multiset.map_add]

@[simp] theorem filled_single (t : Token) : filled {t} = t.filling?.elim 0 ({·.1}) := by
  rw [filled, fillings, filterMap_single]
  cases t.filling? <;> rfl

@[simp] theorem filled_zero : filled 0 = 0 := rfl

theorem filled_eq {R R' : Hold} (hfillings : R'.fillings = R.fillings) : R'.filled = R.filled := by
  rw [filled, filled, hfillings]

theorem handles_ofHandles (hs : List Handle) : handles (ofHandles hs) = ↑hs := by
  simp

end Hold

section Arrays

variable {α : Type} {xs : Array α} {i : Nat} {old : α}

theorem modify_eq_setIfInBounds (hold : xs[i]? = some old) (f : α → α) :
    xs.modify i f = xs.setIfInBounds i (f old) := by
  apply Array.ext_getElem?
  intro j
  rw [Array.getElem?_modify, Array.getElem?_setIfInBounds]
  obtain ⟨hi, hval⟩ := Array.getElem?_eq_some_iff.mp hold
  by_cases hij : i = j
  · subst hij
    simp [hi, hval]
  · simp [hij]

theorem modify_of_none (hnone : xs[i]? = none) (f : α → α) : xs.modify i f = xs := by
  apply Array.ext_getElem?
  intro j
  rw [Array.getElem?_modify]
  by_cases hij : i = j
  · subst hij
    simp [hnone]
  · simp [hij]

/-- The handles in the entries of an array. -/
def bag (f : α → List Handle) (xs : Array α) : Multiset Handle :=
  ↑(xs.toList.flatMap f)

@[simp] theorem bag_push (f : α → List Handle) (xs : Array α) (a : α) :
    bag f (xs.push a) = bag f xs + ↑(f a) := by
  simp [bag]

theorem flatMap_set_add (f : α → List Handle) (l : List α) (i : Nat) (hi : i < l.length) (a : α) :
    (↑((l.set i a).flatMap f) : Multiset Handle) + ↑(f l[i]) = ↑(l.flatMap f) + ↑(f a) := by
  induction l generalizing i with
  | nil => simp at hi
  | cons b l ih =>
      cases i with
      | zero =>
          simp only [List.set_cons_zero, List.flatMap_cons, List.getElem_cons_zero,
            ← Multiset.coe_add]
          abel
      | succ i =>
          have hrest := ih i (by simpa using hi)
          simp only [List.set_cons_succ, List.flatMap_cons, List.getElem_cons_succ,
            ← Multiset.coe_add, add_assoc, hrest]

/-- Writing an entry moves its old handles out and the new ones in. -/
theorem bag_set (f : α → List Handle) (hold : xs[i]? = some old) (a : α) :
    bag f (xs.setIfInBounds i a) + ↑(f old) = bag f xs + ↑(f a) := by
  obtain ⟨hi, rfl⟩ := Array.getElem?_eq_some_iff.mp hold
  rw [bag, Array.toList_setIfInBounds]
  exact flatMap_set_add f xs.toList i hi a

/-- Writing an entry with the same handles changes nothing. -/
theorem bag_set_of_eq (f : α → List Handle) (hold : xs[i]? = some old) {a : α}
    (ha : f a = f old) : bag f (xs.setIfInBounds i a) = bag f xs := by
  have hset := bag_set f hold a
  rw [ha] at hset
  exact add_right_cancel hset

theorem bag_modify_of_eq (f : α → List Handle) {g : α → α}
    (hg : ∀ a, xs[i]? = some a → f (g a) = f a) : bag f (xs.modify i g) = bag f xs := by
  cases hold : xs[i]? with
  | none => rw [modify_of_none hold]
  | some a =>
      rw [modify_eq_setIfInBounds hold]
      exact bag_set_of_eq f hold (hg a hold)

theorem mem_bag {f : α → List Handle} {h : Handle} (hold : xs[i]? = some old) (hh : h ∈ f old) :
    h ∈ bag f xs := by
  obtain ⟨hi, rfl⟩ := Array.getElem?_eq_some_iff.mp hold
  exact Multiset.mem_coe.mpr (List.mem_flatMap.mpr ⟨_, Array.getElem_mem_toList hi, hh⟩)

end Arrays

/-- What comes in was held, and what goes out is held. -/
theorem exchange {β : Type} [DecidableEq β] {a b old new given taken : Multiset β}
    (hstored : a + old = b + new) (hmoved : new + given = old + taken) (R : Multiset β) :
    a + (R + given) = b + (R + taken) := by
  ext h
  have hcount := congrArg (Multiset.count h) hstored
  have hmove := congrArg (Multiset.count h) hmoved
  simp only [Multiset.count_add] at hcount hmove ⊢
  omega

namespace Bindings

variable {α M : Type} [AddCommMonoid M]

/-- What the values of all names amount to. -/
def total (f : α → M) (b : Bindings α) : M :=
  (b.map fun entry => f entry.2).sum

/-- Binding a name moves its old value out and the new one in. -/
theorem total_put (f : α → M) (name : String) (v : α) (b : Bindings α) :
    total f (b.put name v) + (b.get? name).elim 0 f = total f b + f v := by
  induction b with
  | nil => simp [total, put, get?]
  | cons entry rest ih =>
      obtain ⟨n, old⟩ := entry
      by_cases hn : n = name
      · subst hn
        simp only [total, put, get?_cons, if_true, List.map_cons, List.sum_cons, Option.elim_some]
        abel
      · have hne : name ≠ n := fun heq => hn heq.symm
        simp only [total, put, get?_cons, hn, hne, if_false, List.map_cons, List.sum_cons] at ih ⊢
        rw [add_assoc, ih, add_assoc]

theorem mem_total {β : Type} {f : α → Multiset β} {name : String} {v : α} {b : Bindings α}
    (hget : b.get? name = some v) {a : β} (ha : a ∈ f v) : a ∈ b.total f := by
  induction b with
  | nil => simp [get?] at hget
  | cons entry rest ih =>
      obtain ⟨n, old⟩ := entry
      rw [get?_cons] at hget
      simp only [total, List.map_cons, List.sum_cons, Multiset.mem_add]
      by_cases hn : name = n
      · rw [if_pos hn] at hget
        cases hget
        exact Or.inl ha
      · rw [if_neg hn] at hget
        exact Or.inr (ih hget)

theorem erase_of_not_mem {name : String} {b : Bindings α} (hnot : name ∉ b.map Prod.fst) :
    b.erase name = b := by
  rw [erase, List.filter_eq_self]
  intro entry hentry
  have hne : entry.1 ≠ name := fun heq => hnot (heq ▸ List.mem_map_of_mem hentry)
  simpa using hne

/-- Taking a name out moves its value out. -/
theorem total_erase (f : α → M) (name : String) {b : Bindings α} (hnames : (b.map Prod.fst).Nodup) :
    total f (b.erase name) + (b.get? name).elim 0 f = total f b := by
  induction b with
  | nil => simp [total, erase, get?]
  | cons entry rest ih =>
      obtain ⟨n, old⟩ := entry
      simp only [List.map_cons, List.nodup_cons] at hnames
      by_cases hn : n = name
      · subst hn
        have hrest : erase n ((n, old) :: rest) = rest := by
          rw [← erase_of_not_mem hnames.1]
          simp [erase]
        simp [total, hrest, get?_cons, add_comm]
      · have hne : name ≠ n := fun heq => hn heq.symm
        have hcons : erase name ((n, old) :: rest) = (n, old) :: erase name rest := by
          simp [erase, hn]
        have hrest := ih hnames.2
        simp only [total, hcons, get?_cons, hne, if_false, List.map_cons, List.sum_cons]
          at hrest ⊢
        rw [add_assoc, hrest]

theorem mem_put {name : String} {v : α} {b : Bindings α} {entry : String × α}
    (hmem : entry ∈ b.put name v) : entry ∈ b ∨ entry.2 = v := by
  induction b with
  | nil =>
      rw [put, List.mem_singleton] at hmem
      exact Or.inr (hmem ▸ rfl)
  | cons first rest ih =>
      obtain ⟨n, old⟩ := first
      rw [put] at hmem
      by_cases hn : n = name
      · rw [if_pos hn, List.mem_cons] at hmem
        rcases hmem with rfl | hrest
        · exact Or.inr rfl
        · exact Or.inl (List.mem_cons_of_mem _ hrest)
      · rw [if_neg hn, List.mem_cons] at hmem
        rcases hmem with rfl | hrest
        · exact Or.inl List.mem_cons_self
        · exact (ih hrest).imp_left (List.mem_cons_of_mem _)

theorem nodup_names_erase {name : String} {b : Bindings α} (hnames : (b.map Prod.fst).Nodup) :
    ((b.erase name).map Prod.fst).Nodup :=
  hnames.sublist (List.filter_sublist.map _)

theorem names_put (name : String) (v : α) (b : Bindings α) :
    (b.put name v).map Prod.fst
      = if name ∈ b.map Prod.fst then b.map Prod.fst else b.map Prod.fst ++ [name] := by
  induction b with
  | nil => simp [put]
  | cons entry rest ih =>
      obtain ⟨n, old⟩ := entry
      by_cases hn : n = name
      · simp [put, hn]
      · have hne : name ≠ n := fun heq => hn heq.symm
        simp only [put, hn, if_false, List.map_cons, ih, List.mem_cons, hne, false_or]
        split <;> simp

theorem nodup_names_put {name : String} {b : Bindings α} (v : α)
    (hnames : (b.map Prod.fst).Nodup) : ((b.put name v).map Prod.fst).Nodup := by
  rw [names_put]
  by_cases hmem : name ∈ b.map Prod.fst
  · rw [if_pos hmem]
    exact hnames
  · rw [if_neg hmem]
    exact List.nodup_append.mpr
      ⟨hnames, List.nodup_singleton _, fun a ha c hc heq =>
        hmem (List.mem_singleton.mp hc ▸ heq ▸ ha)⟩

end Bindings

namespace World

/-- The handles in the values of variables. -/
def varBag (w : World) : Multiset Handle :=
  w.scope.vars.total fun b => ↑b.handles

/-- The handles that are held while no code runs. -/
def rootBag (w : World) : Multiset Handle :=
  bag NativeState.kept w.declared + bag Twin.contents w.twins + bag ClassState.handles w.classes
    + bag InstanceVec.handles w.vecs + bag SharedGroup.handles w.groups
    + bag (·.state.handles) w.threads + w.varBag

theorem coe_flatMap {α β : Type} (f : α → List β) (l : List α) :
    (↑(l.flatMap f) : Multiset β) = (l.map fun a => (↑(f a) : Multiset β)).sum := by
  induction l with
  | nil => rfl
  | cons a l ih => rw [List.flatMap_cons, ← Multiset.coe_add, ih, List.map_cons, List.sum_cons]

theorem coe_roots (w : World) : (↑w.roots : Multiset Handle) = w.rootBag := by
  simp only [roots, rootBag, bag, varBag, Bindings.total, ← Multiset.coe_add, coe_flatMap]

end World

end TwinObject
