/-
Reproduction.  A copy takes one more handle to all that is in its source, a move
only to what the defaults hold that the source goes back to.  Either happens as a
whole, or the world stays as it is.
-/
import TwinObject.Proofs.Bystanders

namespace TwinObject

namespace Twin

/-- A twin to which there are as many more handles as a list names. -/
def gain (t : TwinId) (hs : List Handle) (a : Twin) : Twin :=
  { a with
    nativeCount := a.nativeCount + hs.count (.native t)
    dynamicCount := a.dynamicCount + hs.count (.dynamic t) }

@[simp] theorem gain_nil (t : TwinId) (a : Twin) : a.gain t [] = a :=
  rfl

theorem gain_cons (t : TwinId) (h : Handle) (hs : List Handle) (a : Twin) :
    a.gain t (h :: hs) = (if h.twin = t then a.retain h else a).gain t hs := by
  cases h with
  | native i =>
      by_cases hi : i = t
      · simp [gain, Handle.twin, retain, hi, Nat.add_assoc, Nat.add_comm 1]
      · simp [gain, Handle.twin, hi]
  | dynamic i =>
      by_cases hi : i = t
      · simp [gain, Handle.twin, retain, hi, Nat.add_assoc, Nat.add_comm 1]
      · simp [gain, Handle.twin, hi]

end Twin

namespace World

variable {w u : World} {t n : TwinId} {x : Twin}

theorem retainAll_gain (hs : List Handle) (w : World) (t : TwinId) :
    (w.retainAll hs).twins[t]? = (w.twins[t]?).map (Twin.gain t hs) := by
  induction hs generalizing w with
  | nil => exact Option.map_id'.symm
  | cons h hs ih =>
      have hone : (w.retain h).twins[t]?
          = (w.twins[t]?).map fun a => if h.twin = t then a.retain h else a := by
        rw [retain, modifyTwin, Array.getElem?_modify]
        split
        · rfl
        · exact Option.map_id'.symm
      change ((w.retain h).retainAll hs).twins[t]? = _
      rw [ih, hone, Option.map_map]
      congr 1
      funext a
      exact (Twin.gain_cons t h hs a).symm

end World

/-- The policies under which anyone may duplicate an instance in a way. -/
def Duplication.policies : Duplication → List CopyPolicy
  | .copy => [.everyone]
  | .move => [.everyone, .moveOnly]

namespace Twin

variable {x y : Twin} {way : Duplication} {f : Failure}

/-- Whether an instance may be duplicated in a way: those of dynamic classes always may,
others if each segment lets anyone do it. -/
def MayBe (way : Duplication) (x : Twin) : Prop :=
  x.kind.fromDerived = true ∨ ∀ s ∈ x.layout.segments, s.copyPolicy ∈ way.policies

/-- What speaks against it: an instance of a native class, and the first segment that does not
let anyone do it. -/
structure Refuses (way : Duplication) (x : Twin) (f : Failure) : Prop where
  native : x.kind.fromDerived = false
  first : ∃ before s after, x.layout.segments = before ++ s :: after
    ∧ (∀ b ∈ before, b.copyPolicy ∈ way.policies) ∧ s.copyPolicy ∉ way.policies
    ∧ f = .copyUnavailable s.name way

theorem canCopy_eq (p : CopyPolicy) : p.canCopy false = decide (p ∈ Duplication.copy.policies) := by
  cases p <;> rfl

theorem canMove_eq (p : CopyPolicy) : p.canMove false = decide (p ∈ Duplication.move.policies) := by
  cases p <;> rfl

/-- The first segment that does not let anyone do it is an obstacle. -/
theorem obstacle_eq (way : Duplication) (x : Twin) :
    x.obstacle? way = if x.kind.fromDerived then none
      else (x.layout.segments.find? fun s => s.copyPolicy ∉ way.policies).map
        fun s => .copyUnavailable s.name way := by
  unfold obstacle? refusal?
  cases x.kind with
  | dynamic c => rfl
  | native c =>
      cases way <;>
        simp only [Kind.fromDerived, canCopy_eq, canMove_eq, decide_not, Bool.false_eq_true,
          if_false]

theorem obstacle_eq_some_iff : x.obstacle? way = some f ↔ x.Refuses way f := by
  rw [obstacle_eq]
  cases hkind : x.kind.fromDerived with
  | true => exact ⟨nofun, fun h => nomatch hkind.symm.trans h.native⟩
  | false =>
      simp only [Bool.false_eq_true, if_false, Option.map_eq_some_iff,
        List.find?_eq_some_iff_append]
      constructor
      · rintro ⟨s, ⟨hs, before, after, hsplit, hbefore⟩, rfl⟩
        exact ⟨hkind, before, s, after, hsplit, by simpa using hbefore, of_decide_eq_true hs, rfl⟩
      · rintro ⟨-, before, s, after, hsplit, hbefore, hs, rfl⟩
        exact ⟨s, ⟨decide_eq_true hs, before, after, hsplit, by simpa using hbefore⟩, rfl⟩

theorem obstacle_eq_none_iff : x.obstacle? way = none ↔ x.MayBe way := by
  rw [obstacle_eq, MayBe]
  cases x.kind.fromDerived <;> simp [List.find?_eq_none]

/-- Both halves of another twin and as much constructed, in one that is native-owned. -/
structure Continues (x y : Twin) : Prop where
  interp : y.interp = x.interp
  kind : y.kind = x.kind
  storage : y.storage = x.storage
  attrs : y.attrs = x.attrs
  constructed : y.constructed = x.constructed
  owner : y.owner = .native
  moved : y.moved = false
  live : y.stage = .live

theorem continues_reborn (x : Twin) : x.Continues (x.reborn x.storage x.attrs) :=
  ⟨rfl, rfl, rfl, rfl, rfl, rfl, rfl, rfl⟩

theorem Continues.rests {x y z : Twin} (h : x.Continues y) (hrests : y.Rests z)
    (hlive : z.stage = .live) : x.Continues z := by
  have hbare := hrests.bare hlive
  have hinterp : z.interp = y.interp := congrArg (·.interp) hbare
  have howner : z.owner = y.owner := congrArg (·.owner) hbare
  have hmoved : z.moved = y.moved := congrArg (·.moved) hbare
  exact ⟨hinterp.trans h.interp, hrests.kind.trans h.kind, (hrests.storage hlive).trans h.storage,
    (hrests.attrs hlive).trans h.attrs, (hrests.constructed hlive).trans h.constructed,
    howner.trans h.owner, hmoved.trans h.moved, hlive⟩

/-- The handles in the values that the members of a layout begin with. -/
def defaultHandles (x : Twin) : List Handle :=
  x.layout.defaultStorage.flatten.flatMap NativeValue.handles

theorem contents_movedOut (x : Twin) : x.movedOut.contents = x.defaultHandles := by
  rw [contents, movedOut, Attributes.handles_empty, List.append_nil]
  rfl

end Twin

namespace World

variable {w u : World} {t n : TwinId} {x : Twin}

/-- A new twin, which is held by one dynamic handle, continues `x`.  Apart from twins nothing
changes but that the segments that are constructed in it are recorded as built. -/
structure Continued (w : World) (x : Twin) (n : TwinId) (u : World) : Prop where
  fresh : n = w.twins.size
  size : u.twins.size = w.twins.size + 1
  twin : ∃ y, u.twins[n]? = some y ∧ x.Continues y ∧ y.nativeCount = 0 ∧ y.dynamicCount = 1
  journal : u.journal.toList = w.journal.toList ++ x.builtSegments.map Event.ofBuilt
  frame : { u with twins := w.twins, journal := w.journal } = w

/-- A copy was made of `x`: all twins, `x` too, are as they were, with one more handle for
each that is in `x`. -/
structure Copied (w : World) (x : Twin) (n : TwinId) (u : World) : Prop
    extends Continued w x n u where
  others : ∀ (i : TwinId) (a : Twin), w.twins[i]? = some a →
    u.twins[i]? = some (a.gain i x.contents)

/-- The halves of `x` were moved: it keeps default storage and no attributes and says so,
and all others are as they were, with one more handle for each in the defaults. -/
structure Moved (w : World) (t : TwinId) (x : Twin) (n : TwinId) (u : World) : Prop
    extends Continued w x n u where
  source : u.twins[t]? = some { x.gain t x.defaultHandles with
    storage := x.layout.defaultStorage, attrs := {}, moved := true }
  others : ∀ (i : TwinId) (a : Twin), i ≠ t → w.twins[i]? = some a →
    u.twins[i]? = some (a.gain i x.defaultHandles)

/-- A twin that is admitted to a world of which only twins are different. -/
theorem continued_admitTwin {v : World} (hsize : v.twins.size = w.twins.size)
    (hframe : { v with twins := w.twins } = w) (x : Twin) :
    Continued w x (v.admitTwin (x.reborn x.storage x.attrs)).2
      (v.admitTwin (x.reborn x.storage x.attrs)).1 where
  fresh := hsize
  size := (Array.size_push _).trans (congrArg (· + 1) hsize)
  twin := ⟨_, Array.getElem?_push_size, x.continues_reborn, rfl, rfl⟩
  journal := by
    have hjournal : v.journal = w.journal := congrArg (·.journal) hframe
    change (v.journal ++ _).toList = _
    rw [hjournal]
    simp [Twin.reborn, Twin.builtSegments, Twin.builtBases, Twin.layout]
  frame := by
    have hjournal : v.journal = w.journal := congrArg (·.journal) hframe
    rw [← hjournal]
    exact hframe

theorem getElem?_admitTwin {v : World} {i : TwinId} {a : Twin} (y : Twin)
    (ha : v.twins[i]? = some a) : (v.admitTwin y).1.twins[i]? = some a := by
  obtain ⟨hlt, -⟩ := Array.getElem?_eq_some_iff.mp ha
  change (v.twins.push y)[i]? = some a
  rw [Array.getElem?_push_lt hlt, ← ha, Array.getElem?_eq_getElem hlt]

theorem copied_of_mayBe (hx : w.twins[t]? = some x) (hfree : x.MayBe .copy) :
    ∃ n u, copyTwin t w = (.ok n, u) ∧ Copied w x n u := by
  rw [copyTwin, twin_eq hx, Twin.obstacle_eq_none_iff.mpr hfree]
  refine ⟨_, _, rfl, ?_⟩
  obtain ⟨twins, hframe, hsize⟩ := w.retainAll_frame x.contents
  refine ⟨continued_admitTwin (by rw [hframe, hsize]) (by rw [hframe]) x, fun i a ha => ?_⟩
  exact getElem?_admitTwin _ (by rw [retainAll_gain, ha]; rfl)

theorem moved_of_mayBe (hx : w.twins[t]? = some x) (hfree : x.MayBe .move) :
    ∃ n u, moveTwin t w = (.ok n, u) ∧ Moved w t x n u := by
  rw [moveTwin, twin_eq hx, Twin.obstacle_eq_none_iff.mpr hfree]
  refine ⟨_, _, rfl, ?_⟩
  obtain ⟨twins, hframe, hsize⟩ := w.retainAll_frame x.movedOut.contents
  refine ⟨continued_admitTwin ?_ ?_ x, getElem?_admitTwin _ ?_, fun i a hi ha => ?_⟩
  · rw [size_modifyTwin, hframe, hsize]
  · rw [hframe]
    rfl
  · rw [modifyTwin, Array.getElem?_modify, if_pos rfl, retainAll_gain, hx, Twin.contents_movedOut]
    rfl
  · refine getElem?_admitTwin _ ?_
    rw [modifyTwin, Array.getElem?_modify, if_neg (Ne.symm hi), retainAll_gain, ha,
      Twin.contents_movedOut]
    rfl

/-- A way to duplicate `x` that is taken as a whole if nothing speaks against it, and not at
all otherwise. -/
theorem whole_of_obstacle {way : Duplication} {run : Act (Except Failure TwinId)}
    {made : TwinId → World → Prop}
    (hfree : x.MayBe way → ∃ n u, run w = (.ok n, u) ∧ made n u)
    (hstop : ∀ f, x.obstacle? way = some f → run w = (.error f, w)) :
    (∀ n u, run w = (.ok n, u) → made n u)
      ∧ ∀ f u, run w = (.error f, u) ↔ u = w ∧ x.Refuses way f := by
  simp only [← Twin.obstacle_eq_some_iff]
  cases hobstacle : x.obstacle? way with
  | none =>
      obtain ⟨n, u, hok, hmade⟩ := hfree (Twin.obstacle_eq_none_iff.mp hobstacle)
      refine ⟨fun n' u' h => ?_, fun f u' => ⟨fun h => ?_, fun h => nomatch h.2⟩⟩
      · cases hok.symm.trans h
        exact hmade
      · cases hok.symm.trans h
  | some g =>
      have herror := hstop g hobstacle
      refine ⟨fun n u h => ?_, fun f u => ⟨fun h => ?_, ?_⟩⟩
      · cases herror.symm.trans h
      · cases herror.symm.trans h
        exact ⟨rfl, rfl⟩
      · rintro ⟨rfl, h⟩
        cases h
        exact herror

theorem copyTwin_refused (hx : w.twins[t]? = some x) {f : Failure}
    (h : x.obstacle? .copy = some f) : copyTwin t w = (.error f, w) := by
  rw [copyTwin, twin_eq hx, h]

theorem moveTwin_refused (hx : w.twins[t]? = some x) {f : Failure}
    (h : x.obstacle? .move = some f) : moveTwin t w = (.error f, w) := by
  rw [moveTwin, twin_eq hx, h]

/-- A fresh instance is a copy if it may be one, else moved if it may be, else none. -/
theorem materializeTwin_eq (hx : w.twins[t]? = some x) [Decidable (x.MayBe .copy)]
    [Decidable (x.MayBe .move)] :
    materializeTwin t w
      = if ¬x.MayBe .copy ∧ x.MayBe .move then moveTwin t w else copyTwin t w := by
  have hcopy : (x.kind.fromDerived || x.allows (CopyPolicy.canCopy false)) = true
      ↔ x.MayBe .copy := by
    simp [Twin.MayBe, Twin.allows, Twin.canCopy_eq]
  rw [materializeTwin, twin_eq hx]
  simp only [hcopy]
  by_cases hfree : x.MayBe .copy
  · rw [if_pos hfree, if_neg fun h => h.1 hfree]
  · have hnative : x.kind.fromDerived ≠ true := fun hderived => hfree (.inl hderived)
    have hmove : x.allows (CopyPolicy.canMove false) = true ↔ x.MayBe .move := by
      simp [Twin.MayBe, Twin.allows, Twin.canMove_eq, hnative]
    simp only [hfree, hmove, if_false, not_false_eq_true, true_and]

theorem materializeTwin_copied (hx : w.twins[t]? = some x) (hcopy : x.MayBe .copy) :
    ∃ n u, materializeTwin t w = (.ok n, u) ∧ Copied w x n u := by
  classical
  rw [materializeTwin_eq hx, if_neg fun h => h.1 hcopy]
  exact copied_of_mayBe hx hcopy

theorem materializeTwin_moved (hx : w.twins[t]? = some x) (hcopy : ¬x.MayBe .copy)
    (hmove : x.MayBe .move) : ∃ n u, materializeTwin t w = (.ok n, u) ∧ Moved w t x n u := by
  classical
  rw [materializeTwin_eq hx, if_pos ⟨hcopy, hmove⟩]
  exact moved_of_mayBe hx hmove

/-- Whatever the way, what comes out is a new instance that continues the source. -/
theorem continued_of_ok (hx : w.twins[t]? = some x) {way : TwinObject.Reproduction}
    (hok : reproduce way t w = (.ok n, u)) : Continued w x n u := by
  classical
  have hcopy (h : copyTwin t w = (.ok n, u)) : Continued w x n u :=
    ((whole_of_obstacle (copied_of_mayBe hx) fun _ => copyTwin_refused hx).1 n u h).toContinued
  have hmove (h : moveTwin t w = (.ok n, u)) : Continued w x n u :=
    ((whole_of_obstacle (moved_of_mayBe hx) fun _ => moveTwin_refused hx).1 n u h).toContinued
  cases way with
  | copy => exact hcopy hok
  | move => exact hmove hok
  | materialize =>
      rw [reproduce, materializeTwin_eq hx] at hok
      split at hok
      · exact hmove hok
      · exact hcopy hok

theorem materializeTwin_refused (hx : w.twins[t]? = some x) (hcopy : ¬x.MayBe .copy)
    (hmove : ¬x.MayBe .move) : ∃ f, materializeTwin t w = (.error f, w) ∧ x.Refuses .copy f := by
  classical
  rw [← Twin.obstacle_eq_none_iff] at hcopy
  obtain ⟨f, hobstacle⟩ := Option.ne_none_iff_exists'.mp hcopy
  rw [materializeTwin_eq hx, if_neg fun h => hmove h.2]
  exact ⟨f, copyTwin_refused hx hobstacle, Twin.obstacle_eq_some_iff.mp hobstacle⟩

end World

/-- Copies and moves of an instance, which end as a whole or not at all.  Each new instance is
native-owned and continues both halves of its source and as much as is constructed there.
A copy leaves the source as it is; a move leaves it with default storage, no attributes and
the mark of having been moved; other instances gain a handle for each that was duplicated, and
nothing else.  An instance of a native class is neither copied nor moved if one of its segments
does not let anyone do that; then the failure names the first such segment, and the world is
unchanged.  A fresh instance for a result is a copy if there may be one, else moved if that
may be, and else fails as a copy does. -/
theorem reproduction_whole {w : World} {t : TwinId} {x : Twin} (hx : w.twins[t]? = some x) :
    ((∀ n u, World.copyTwin t w = (.ok n, u) → World.Copied w x n u)
      ∧ ∀ f u, World.copyTwin t w = (.error f, u) ↔ u = w ∧ x.Refuses .copy f)
    ∧ ((∀ n u, World.moveTwin t w = (.ok n, u) → World.Moved w t x n u)
      ∧ ∀ f u, World.moveTwin t w = (.error f, u) ↔ u = w ∧ x.Refuses .move f)
    ∧ (x.MayBe .copy → ∃ n u, World.materializeTwin t w = (.ok n, u) ∧ World.Copied w x n u)
    ∧ (¬x.MayBe .copy → x.MayBe .move →
        ∃ n u, World.materializeTwin t w = (.ok n, u) ∧ World.Moved w t x n u)
    ∧ (¬x.MayBe .copy → ¬x.MayBe .move →
        ∃ f, World.materializeTwin t w = (.error f, w) ∧ x.Refuses .copy f) := by
  exact ⟨World.whole_of_obstacle (World.copied_of_mayBe hx) fun _ => World.copyTwin_refused hx,
    World.whole_of_obstacle (World.moved_of_mayBe hx) fun _ => World.moveTwin_refused hx,
    World.materializeTwin_copied hx, World.materializeTwin_moved hx,
    World.materializeTwin_refused hx⟩

/-! A crate stands on another one.  It may be moved and not copied, and what is moved out of
it stands where it stood. -/

namespace Figures

def crate : NativeClass where
  id := ⟨0⟩
  name := "Crate"
  parents := []
  members := [⟨"size", .int, .everyone, .int 1⟩, ⟨"on", .ptr "Crate", .everyone, .null⟩]
  constructors := []
  vtable := .empty
  methods := []
  virtualDtor := true
  copyPolicy := .moveOnly
  hooks := []

def upper : Twin :=
  { Twin.fresh 0 (.native crate) .dynamic with
    storage := [[.int 7, .object 1]], constructed := [true] }

def lower : Twin :=
  { Twin.fresh 0 (.native crate) .native with
    constructed := [true], nativeCount := 1, dynamicCount := 0 }

def stack : World where
  twins := #[upper, lower]

end Figures

open Figures in
theorem reproduction_whole_crate :
    stack.twins[0]? = some upper
      ∧ World.copyTwin 0 stack = (.error (.copyUnavailable "Crate" .copy), stack)
      ∧ ∃ n u, World.materializeTwin 0 stack = (.ok n, u)
        ∧ (∃ y, u.twins[n]? = some y ∧ y.storage = [[.int 7, .object 1]] ∧ y.owner = .native)
        ∧ (u.twins[0]?).map (fun a => (a.storage, a.moved)) = some ([[.int 1, .null]], true)
        ∧ u.twins[1]? = some lower := by
  have hx : stack.twins[0]? = some upper := rfl
  obtain ⟨⟨-, hcopy⟩, -, -, hmove, -⟩ := reproduction_whole hx
  have hrefuses : upper.Refuses .copy (.copyUnavailable "Crate" .copy) :=
    ⟨rfl, [], crate, [], rfl, nofun, by decide, rfl⟩
  have hmoves : upper.MayBe .move := .inr (by decide)
  have hcopies : ¬upper.MayBe .copy := by
    rintro (h | h)
    · cases h
    · exact absurd (h crate List.mem_cons_self) (by decide)
  obtain ⟨n, u, hok, hmoved⟩ := hmove hcopies hmoves
  obtain ⟨y, hy, hcontinues, -⟩ := hmoved.twin
  refine ⟨hx, (hcopy _ _).mpr ⟨rfl, hrefuses⟩, n, u, hok,
    ⟨y, hy, hcontinues.storage, hcontinues.owner⟩, ?_, hmoved.others 1 lower (by decide) rfl⟩
  rw [hmoved.source]
  rfl

end TwinObject
