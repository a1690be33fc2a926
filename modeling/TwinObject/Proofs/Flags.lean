/-
The flags of an instance, one for each of its bases.  A flag is set when all segments of its
base are built, and never taken back.
-/
import TwinObject.Proofs.AtOnce
import TwinObject.Proofs.Unwinding

namespace TwinObject

open Hold

section Steps

variable {w u : World} {R S : Hold} {t : TwinId} {a b : Twin}

/-- Marking a base writes its flag and nothing else to the instance. -/
theorem Construction.twins_markBuilt (ha : w.twins[t]? = some a) (index : Nat)
    (base : NativeClass) : (markBuilt t index base w).twins
      = (w.setTwin t { a with constructed := a.constructed.set index true }).twins := by
  have hagain : ∀ v : World, v.twins = w.twins → (v.modifyTwin t fun twin =>
      { twin with constructed := twin.constructed.set index true }).twins
        = (w.setTwin t { a with constructed := a.constructed.set index true }).twins := by
    intro v hv
    rw [World.modifyTwin_eq (hv ▸ ha), World.setTwin, hv]
    rfl
  unfold markBuilt
  dsimp only
  split
  · exact hagain _ rfl
  · exact hagain _ rfl

/-- A step leaves the flags of a twin that stays alive as they are, or sets the flag of one
base, whose segments have been held since they were built. -/
theorem Transition.flags (hstep : Transition w R u S) (ha : w.twins[t]? = some a)
    (hb : u.twins[t]? = some b) (hlive : b.stage = .live) :
    b.constructed = a.constructed ∨ ∃ index base, a.layout.baseRange? index = some base
      ∧ R = S + ofSegments (base.base.flatten.map NativeClass.id)
      ∧ b.constructed = a.constructed.set index true := by
  have hsame : u.twins = w.twins → b.constructed = a.constructed := by
    intro htwins
    cases ha.symm.trans (htwins ▸ hb)
    rfl
  have hrests : w.Rests u → b.constructed = a.constructed := fun hrests =>
    (hrests.twin ha hb).constructed hlive
  have hset : ∀ {i : TwinId} {old new : Twin}, w.twins[i]? = some old → u = w.setTwin i new →
      new.constructed = old.constructed → b.constructed = a.constructed := by
    rintro i old new hold rfl hnew
    rcases World.of_getElem?_setTwin hold hb with ⟨rfl, rfl⟩ | ⟨-, hb⟩
    · cases hold.symm.trans ha
      exact hnew
    · cases hb.symm.trans ha
      rfl
  cases hstep with
  | quiet halike => exact .inl (hsame halike.twins)
  | retain => exact .inl (hrests (World.Still.retain w _).rests)
  | letGo h => exact .inl (hrests (World.Still.letGo w h).rests)
  | endClass id => exact .inl (hrests (World.Still.endClass id w).rests)
  | endNative id => exact .inl (hrests (World.Still.endNative id w).rests)
  | create => exact .inl (hrests (.admitTwin w _))
  | depart htwin => exact .inl (hset htwin rfl rfl)
  | store htwin => exact .inl (hset htwin rfl rfl)
  | fill htwin => exact .inl (hset htwin (World.modifyTwin_eq htwin _) rfl)
  | unfill i flags =>
      cases hi : w.twins[i]? with
      | none => exact .inl (hsame (congrArg World.twins (World.modifyTwin_of_none hi _)))
      | some old => exact .inl (hset hi (World.modifyTwin_eq hi _) rfl)
  | @mark _ i twin index base htwin hstage hfree hbase hagain =>
      rw [Construction.twins_markBuilt htwin] at hb
      rcases World.of_getElem?_setTwin htwin hb with ⟨rfl, rfl⟩ | ⟨-, hb⟩
      · cases htwin.symm.trans ha
        exact .inr ⟨index, base, hbase, rfl, rfl⟩
      · cases hb.symm.trans ha
        exact .inl rfl
  | _ => exact .inl (hsame rfl)

end Steps

/-- Whether of some flags none was taken back, while others may have been set. -/
def Advance (old new : List Bool) : Prop :=
  ∀ i : Nat, new[i]? = old[i]? ∨ old[i]? = some false ∧ new[i]? = some true

namespace Advance

variable {xs ys zs : List Bool}

theorem refl (xs : List Bool) : Advance xs xs :=
  fun _ => .inl rfl

theorem trans (h : Advance xs ys) (h' : Advance ys zs) : Advance xs zs := by
  intro i
  rcases h i with hsame | ⟨hunset, hset⟩
  · rw [← hsame]
    exact h' i
  · rcases h' i with hsame | ⟨hnot, -⟩
    · exact .inr ⟨hunset, hsame.trans hset⟩
    · cases hset.symm.trans hnot

theorem set (xs : List Bool) (index : Nat) : Advance xs (xs.set index true) := by
  intro i
  rw [List.getElem?_set]
  split
  · subst index
    split
    · rename_i hlt
      rw [List.getElem?_eq_getElem hlt]
      cases xs[i] with
      | true => exact .inl rfl
      | false => exact .inr ⟨rfl, rfl⟩
    · rename_i hle
      exact .inl (List.getElem?_eq_none (Nat.le_of_not_lt hle)).symm
  · exact .inl rfl

end Advance

/-- Whether a state can come after another one, by steps and by turns of other threads. -/
inductive Later (w : World) (R : Hold) : World → Hold → Prop
  | refl : Later w R w R
  | step {u v : World} {S T : Hold} (hlater : Later w R u S) (hstep : Transition u S v T) :
      Later w R v T
  | turn {u v : World} {S : Hold} (hlater : Later w R u S) (halike : u.Alike v) : Later w R v S

namespace Later

variable {w u : World} {R S : Hold} {t : TwinId} {a b : Twin}

theorem persists (hlater : Later w R u S) : Persists w u := by
  induction hlater with
  | refl => exact .refl w
  | step _ hstep ih => exact ih.trans (.of_step hstep)
  | turn _ halike ih => exact ih.trans (.alike halike)

/-- No flag is taken back as long as the twin is alive. -/
theorem flags (hlater : Later w R u S) (ha : w.twins[t]? = some a) (hb : u.twins[t]? = some b)
    (hlive : b.stage = .live) : Advance a.constructed b.constructed := by
  induction hlater generalizing b with
  | refl =>
      cases ha.symm.trans hb
      exact .refl _
  | step hlater hstep ih =>
      obtain ⟨c, hc, -⟩ := hlater.persists.twins t a ha
      obtain ⟨b', hb', hevolves⟩ := (Persists.of_step hstep).twins t c hc
      cases hb.symm.trans hb'
      have hthere := ih hc (hevolves.live hlive)
      rcases hstep.flags hc hb hlive with heq | ⟨index, base, -, -, heq⟩
      · rwa [heq]
      · rw [heq]
        exact hthere.trans (.set _ index)
  | turn _ halike ih => exact ih (halike.twins ▸ hb) hlive

end Later

namespace Construction

variable {h h' : Host} {w u : World} {R : Hold} {t : TwinId} {index : Nat} {g : ArgGroup}
  {fromDerived : Bool} {e : Ending Failure Unit}

section Bases

/-- A base that is constructed at once has all of its segments built, and then its flag is
set; where that fails the flags are as they were. -/
theorem constructBase_at_once (hsafe : h.Safe h') (hattained : Attained w R) (hlent : Lends R t)
    (hgroup : LendsAll R g.handles)
    (hrun : constructBase h t index g fromDerived w = .ended e u) :
    e ≠ .value () ∧ (u.twin t).constructed = (w.twin t).constructed
    ∨ e = .value () ∧ ∃ b v, (w.twin t).layout.baseRange? index = some b
      ∧ constructClass h t g fromDerived b.base b.start (w.setFilling t true)
        = .ended (.value ()) v
      ∧ (v.twin t).constructed = (w.twin t).constructed ∧ (∃ a, v.twins[t]? = some a)
      ∧ u = markBuilt t index b.base (v.setFilling t false) := by
  obtain ⟨a, ha, -⟩ := hattained.alive_of_lent hlent
  cases hbase : (w.twin t).layout.baseRange? index with
  | none =>
      rw [constructBase_of_none h g fromDerived hbase] at hrun
      cases hrun
      exact .inl ⟨nofun, rfl⟩
  | some b =>
      rw [constructBase_of_some h g fromDerived hbase] at hrun
      have hplaces : (w.setFilling t true).Places t b.base.flatten b.start :=
        (World.Places.of_baseRange ha (World.twin_eq ha ▸ hbase)).mono
          (.modifyTwin t fun _ => ⟨rfl, rfl, id, id⟩)
      have hkept : ∀ {e : Ending Failure Unit} {v : World},
          Run.filling t (constructClass h t g fromDerived b.base b.start) w = .ended e v →
          ∃ x, constructClass h t g fromDerived b.base b.start (w.setFilling t true) = .ended e x
            ∧ v = x.setFilling t false ∧ (x.twin t).constructed = (w.twin t).constructed
            ∧ ∃ c, x.twins[t]? = some c := by
        intro e v hfilled
        obtain ⟨hfree, x, hclass, rfl⟩ := Run.ended_of_filling hfilled
        obtain ⟨hleaves, -⟩ := (constructClass_safe hsafe t g fromDerived b.base b.start hlent.left
          hgroup.left hplaces).at_once ((hattained.fill hlent hfree).cast (add_zero _)) hclass
        obtain ⟨G, hthere, -⟩ := hleaves.attained
        obtain ⟨c, hc, -⟩ := hthere.alive_of_lent hlent.left.left
        exact ⟨x, hclass, rfl, hthere.constructed_of_storage hlent.left.left (by simp), c, hc⟩
      rcases Run.ended_of_seq hrun with ⟨hnot, hfilled⟩ | ⟨v, hfilled, hmarked⟩
      · obtain ⟨x, -, rfl, hflags, -⟩ := hkept hfilled
        exact .inl ⟨hnot, (World.constructed_setFilling x t false).trans hflags⟩
      · obtain ⟨x, hclass, rfl, hflags, hc⟩ := hkept hfilled
        cases hmarked
        exact .inr ⟨rfl, b, x, rfl, hclass, hflags, hc, rfl⟩

variable {v : World} {start count more : Nat}

/-- Whether of the flags of an instance exactly those of `count` bases from `start` on were
set between two worlds, and none of them before. -/
structure Marks (t : TwinId) (start count : Nat) (w u : World) : Prop where
  unset : ∀ i, start ≤ i → i < start + count → (w.twin t).constructed[i]? = some false
  marked : ∀ i, (u.twin t).constructed[i]?
    = if start ≤ i ∧ i < start + count then some true else (w.twin t).constructed[i]?

namespace Marks

theorem none (heq : (u.twin t).constructed = (w.twin t).constructed) : Marks t start 0 w u where
  unset i hle hlt := by omega
  marked i := by rw [heq, if_neg (by omega)]

theorem one (hunset : (w.twin t).constructed[start]? = some false)
    (heq : (u.twin t).constructed = (w.twin t).constructed.set start true) :
    Marks t start 1 w u where
  unset i hle hlt := by rwa [show i = start by omega]
  marked i := by
    rw [heq, List.getElem?_set]
    have hlt := (List.getElem?_eq_some_iff.mp hunset).1
    by_cases hi : start = i
    · rw [if_pos hi, if_pos (hi ▸ hlt), if_pos (by omega)]
    · rw [if_neg hi, if_neg (by omega)]

theorem trans (hfirst : Marks t start count w u) (hrest : Marks t (start + count) more u v) :
    Marks t start (count + more) w v where
  unset i hle hlt := by
    by_cases hi : i < start + count
    · exact hfirst.unset i hle hi
    · have hunset := hrest.unset i (by omega) (by omega)
      rwa [hfirst.marked, if_neg (by omega)] at hunset
  marked i := by
    rw [hrest.marked, hfirst.marked]
    by_cases hi : i < start + count
    · by_cases hle : start ≤ i
      · rw [if_neg (by omega), if_pos ⟨hle, hi⟩, if_pos (by omega)]
      · rw [if_neg (by omega), if_neg (by omega), if_neg (by omega)]
    · by_cases hlt : i < start + count + more
      · rw [if_pos (by omega)]
        split
        · rfl
        · omega
      · rw [if_neg (by omega), if_neg (by omega), if_neg (by omega)]

theorem congr {x y : World} (hmarks : Marks t start count w u)
    (hleft : (w.twin t).constructed = (x.twin t).constructed)
    (hright : (u.twin t).constructed = (y.twin t).constructed) : Marks t start count x y where
  unset := hleft ▸ hmarks.unset
  marked := hright ▸ hleft ▸ hmarks.marked

theorem advance (hmarks : Marks t start count w u) :
    Advance (w.twin t).constructed (u.twin t).constructed := by
  intro i
  rw [hmarks.marked]
  split
  · rename_i hi
    exact .inr ⟨hmarks.unset i hi.1 hi.2, rfl⟩
  · exact .inl rfl

end Marks

/-- Whether a base was constructed between two worlds: its segments were filled in storage
order, each told as built when that was done, and then its flag was set. -/
def Constructs (h : Host) (t : TwinId) (index : Nat) (g : ArgGroup) (w u : World) : Prop :=
  Marks t index 1 w u ∧ ∃ b told, (w.twin t).layout.baseRange? index = some b
    ∧ u.journal.toList = w.journal.toList ++ told
    ∧ Completed h (jobs t g (w.twin t).kind.fromDerived b.base b.start) told

/-- An instance that is alive has a flag for each base. -/
theorem flag_of_base (hattained : Attained w R) (hlent : Lends R t) {b : BaseRange}
    (hbase : (w.twin t).layout.baseRange? index = some b) :
    ∃ flag, (w.twin t).constructed[index]? = some flag := by
  obtain ⟨a, ha, hlive⟩ := hattained.alive_of_lent hlent
  have hshaped : a.Shaped := hattained.reached fun _ hreach =>
    hreach.invariant.formed.shaped t a ha hlive
  rw [World.twin_eq ha] at hbase ⊢
  refine ⟨_, List.getElem?_eq_getElem ?_⟩
  rw [hshaped.constructed]
  exact (List.getElem?_eq_some_iff.mp hbase).1

/-- A base that was constructed at once has its flag set. -/
theorem flags_of_constructBase (hsafe : h.Safe h') (hattained : Attained w R) (hlent : Lends R t)
    (hgroup : LendsAll R g.handles)
    (hrun : constructBase h t index g fromDerived w = .ended (.value ()) u) :
    (u.twin t).constructed = (w.twin t).constructed.set index true
      ∧ ∃ b, (w.twin t).layout.baseRange? index = some b := by
  rcases constructBase_at_once hsafe hattained hlent hgroup hrun with
    ⟨hnot, -⟩ | ⟨-, b, v, hbase, -, hflags, ⟨c, hc⟩, rfl⟩
  · exact absurd rfl hnot
  · have hc' : (v.setFilling t false).twins[t]? = some { c with filling := false } := by
      rw [World.setFilling, World.modifyTwin_eq hc, World.getElem?_setTwin hc, if_pos rfl]
    refine ⟨?_, b, hbase⟩
    rw [constructed_markBuilt hc', ← World.twin_eq hc', World.constructed_setFilling, hflags]

/-- A base that is constructed already is refused, and nothing happens. -/
theorem constructOnce_refused (hset : (w.twin t).constructed[index]? = some true) :
    constructOnce h t index g w = .ended (.raised (.constructionAccess
      ("base '" ++ ((w.twin t).layout.baseRange? index).elim "" (·.base.name) ++ "' of '"
        ++ (w.twin t).name ++ "' is already initialized"))) w := by
  change (if (w.twin t).constructed[index]?.getD false then _ else _ : Run Failure Unit) w = _
  rw [hset]
  rfl

/-- A base is constructed where it was not before, or no flag changes. -/
theorem constructOnce_at_once (hsafe : h.Safe h') (hh : h.Delivers) (hattained : Attained w R)
    (hlent : Lends R t) (hgroup : LendsAll R g.handles)
    (hrun : constructOnce h t index g w = .ended e u) :
    e ≠ .value () ∧ (u.twin t).constructed = (w.twin t).constructed
      ∨ e = .value () ∧ Constructs h t index g w u := by
  change (if (w.twin t).constructed[index]?.getD false then _ else _ : Run Failure Unit) w = _
    at hrun
  split at hrun
  · cases hrun
    exact .inl ⟨nofun, rfl⟩
  · rename_i hunset
    rcases constructBase_at_once hsafe hattained hlent hgroup hrun with
      ⟨hnot, hflags⟩ | ⟨rfl, b, v, hbase, hclass, hflags, -, heq⟩
    · exact .inl ⟨hnot, hflags⟩
    · obtain ⟨hmarked, -⟩ := flags_of_constructBase hsafe hattained hlent hgroup hrun
      obtain ⟨flag, hflag⟩ := flag_of_base hattained hlent hbase
      obtain rfl : flag = false := by
        rw [hflag] at hunset
        exact Bool.eq_false_of_not_eq_true hunset
      have hgrows := Run.Carries.grows
        (constructClass_delivers hh t g (w.twin t).kind.fromDerived b.base b.start)
        (w.setFilling t true)
      rw [hclass] at hgrows
      obtain ⟨told, htold⟩ : (w.setFilling t true).journal.toList <+: v.journal.toList := by
        cases hgrows with
        | ended hjournal => exact hjournal
      have htells : (constructClass h t g (w.twin t).kind.fromDerived b.base b.start).Tells
          (w.setFilling t true) told (.value ()) v := by
        rw [Run.Tells, hclass]
        exact .ended htold.symm
      refine .inr ⟨rfl, .one hflag hmarked, b, told, hbase, ?_,
        (attempt_of_constructClass hh t g _ _ _ htells).completed⟩
      rw [heq, markBuilt, World.constructed_setFilling, hflags, hflag]
      exact htold.symm

/-- Where no instance is written to, the flags of one that stays alive are as they were. -/
theorem flags_of_still (hstill : w.Still u) (halive : u.Alive t) :
    (u.twin t).constructed = (w.twin t).constructed := by
  obtain ⟨hrests, hlive⟩ := hstill.twin halive
  exact hrests.constructed hlive

end Bases

end Construction

end TwinObject
