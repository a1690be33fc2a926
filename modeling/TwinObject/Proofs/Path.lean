/-
Paths: steps one after another.  What taking and letting go of handles and
classes does to a world is a path, whatever else is held meanwhile.
-/
import TwinObject.Proofs.Invariant
import TwinObject.Proofs.Turns

namespace TwinObject

open Hold

/-- Whether steps lead from one state to another. -/
inductive Path (w : World) (R : Hold) : World → Hold → Prop
  | refl : Path w R w R
  | tail {w' w'' : World} {R' R'' : Hold} (hpath : Path w R w' R')
      (hstep : Transition w' R' w'' R'') : Path w R w'' R''

theorem Transition.path {w w' : World} {R R' : Hold} (hstep : Transition w R w' R') :
    Path w R w' R' :=
  .tail .refl hstep

theorem Reachable.along {w w' : World} {R R' : Hold} (hreach : Reachable w R)
    (hpath : Path w R w' R') : Reachable w' R' := by
  induction hpath with
  | refl => exact hreach
  | tail hpath hstep ih => exact ih.step hstep

namespace Path

variable {w w' w'' : World} {R R' R'' : Hold}

theorem trans (h : Path w R w' R') (h' : Path w' R' w'' R'') : Path w R w'' R'' := by
  induction h' with
  | refl => exact h
  | tail hpath hstep ih => exact .tail ih hstep

theorem persists (hpath : Path w R w' R') : Persists w w' := by
  induction hpath with
  | refl => exact .refl w
  | tail hpath hstep ih => exact ih.trans (.of_step hstep)

/-- The order in which things are held does not matter. -/
theorem cast {S S' : Hold} (hpath : Path w S w' S') (hstart : R = S) (hend : R' = S') :
    Path w R w' R' := by
  subst hstart hend
  exact hpath

theorem quiet (halike : w.Alike w') (hcalm : w.Calm w') : Path w R w' R :=
  (Transition.quiet halike hcalm).path

/-- No path leads to other locks. -/
theorem calm (hpath : Path w R w' R') : w.Calm w' := by
  induction hpath with
  | refl => exact .refl w
  | tail hpath hstep ih => exact ih.trans hstep.calm

end Path

namespace World

variable {w : World} {R : Hold} {t : TwinId}

theorem Held.mono (hheld : w.Held R t) (S : Hold) : w.Held (R + S) t := by
  obtain ⟨h, hmem, htwin⟩ := hheld
  refine ⟨h, ?_, htwin⟩
  rw [handles, Multiset.filterMap_add, ← add_assoc]
  exact Multiset.mem_add.mpr (Or.inl hmem)

theorem rootBag_modifyTwin (w : World) (t : TwinId) {f : Twin → Twin}
    (hf : ∀ a : Twin, (f a).contents = a.contents) : (w.modifyTwin t f).rootBag = w.rootBag := by
  cases ha : w.twins[t]? with
  | none => rw [modifyTwin_of_none ha]
  | some a =>
      rw [modifyTwin_eq ha]
      exact rootBag_setTwin_of_eq ha (hf a)

theorem Held.retain (hheld : w.Held R t) (h : Handle) :
    (w.retain h).Held (R + {.handle h}) t := by
  obtain ⟨h', hmem, htwin⟩ := hheld.mono {.handle h}
  refine ⟨h', ?_, htwin⟩
  rw [World.retain, rootBag_modifyTwin w h.twin (Twin.contents_retain h)]
  exact hmem

end World

namespace Path

variable {w : World} {R : Hold}

theorem retainAll (hs : List Handle) (hheld : ∀ h ∈ hs, w.Held R h.twin) :
    Path w R (w.retainAll hs) (R + ofHandles hs) := by
  induction hs generalizing w R with
  | nil => exact refl.cast rfl (add_zero R)
  | cons h hs ih =>
      have hfirst : Path w R (w.retain h) (R + {.handle h}) :=
        (Transition.retain (hheld h List.mem_cons_self)).path
      refine (hfirst.trans (ih fun h' hmem => ?_)).cast rfl ?_
      · exact (hheld h' (List.mem_cons_of_mem h hmem)).retain h
      · rw [ofHandles_cons, add_assoc]

theorem endEach {α : Type} {f : α → World → World × List Handle}
    (hf : ∀ (a : α) (w : World) (R : Hold), Path w R (f a w).1 (R + ofHandles (f a w).2))
    (as : List α) (w : World) (R : Hold) :
    Path w R (World.endEach f as w).1 (R + ofHandles (World.endEach f as w).2) := by
  induction as generalizing w R with
  | nil => exact refl.cast rfl (add_zero R)
  | cons a as ih =>
      refine ((hf a w R).trans (ih _ _)).cast rfl ?_
      rw [World.endEach, ofHandles_append, add_assoc]

theorem forsake (k : Kind) (w : World) (R : Hold) :
    Path w R (World.forsake k w).1 (R + ofHandles (World.forsake k w).2) := by
  cases k with
  | native c => exact endEach (fun id w R => (Transition.endNative id).path) _ w R
  | dynamic c => exact endEach (fun id w R => (Transition.endClass id).path) _ w R

theorem letKindGo (w : World) (R : Hold) (t : TwinId) :
    Path w R (w.letKindGo t).1 (R + ofHandles (w.letKindGo t).2) := by
  unfold World.letKindGo
  split
  · exact refl.cast rfl (add_zero R)
  · rename_i twin htwin
    split
    · rename_i hstage
      exact (Transition.depart htwin hstage).path.trans (forsake _ _ _)
    · exact refl.cast rfl (add_zero R)

theorem settleOne (w : World) (R : Hold) (d : Due) :
    Path w (R + ofHandles (Due.handles [d])) (w.settleOne d).1
      (R + ofHandles (Due.handles (w.settleOne d).2)) := by
  cases d with
  | handle h => exact (Transition.letGo h).path
  | kind t =>
      refine (letKindGo w R t).cast ?_ ?_
      · rw [Due.handles_kind, ofHandles_nil, add_zero]
      · rw [World.settleOne, Due.handles_map_handle]

/-- All that is to be done gives up what is held for it. -/
theorem settle (w : World) (ds : List Due) :
    ∀ R : Hold, Path w (R + ofHandles (Due.handles ds)) (w.settle ds) R := by
  fun_induction World.settle w ds with
  | case1 w => exact fun R => refl.cast (add_zero R) rfl
  | case2 w d ds ih =>
      intro R
      have hfirst := settleOne w (R + ofHandles (Due.handles ds)) d
      refine (hfirst.cast ?_ ?_).trans (ih R)
      · rw [← List.singleton_append, Due.handles_append, ofHandles_append]
        abel
      · rw [Due.handles_append, ofHandles_append]
        abel

theorem drop (hs : List Handle) : Path w (R + ofHandles hs) (w.drop hs) R := by
  refine (settle w (hs.map Due.handle) R).cast ?_ rfl
  rw [Due.handles_map_handle]

theorem dropKind (k : Kind) : Path w R (World.dropKind k w) R :=
  (forsake k w R).trans (drop _)

theorem takeBack (k : Kind) : Path w (R + {.kind k}) (World.takeBack k w) R :=
  (Transition.giveBack k).path.trans (dropKind k)

end Path

end TwinObject
