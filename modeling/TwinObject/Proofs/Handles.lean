/-
Handles and hooks after every history.  The counts of a twin are the handles to
it that variables, defaults, other twins, classes, containers and waiting threads
hold, its release comes once and for good, and the segments that were built and
not razed since are those of the constructed bases of live twins.
-/
import TwinObject.Proofs.History

namespace TwinObject

open Hold

namespace Session

/-- All handles that exist: those at rest in the world, and those that threads
hold which wait in the middle of something. -/
def allHandles (s : Session) : Multiset Handle :=
  ↑s.world.roots + s.waiting.handles

theorem allHandles_of_idle {s : Session} (hidle : s.waiters = []) :
    s.allHandles = ↑s.world.roots := by
  simp [allHandles, waiting, Waiters.hold, hidle]

end Session

namespace Attained

variable {w : World} {R : Hold}

/-- Segments that were left behind hold nothing. -/
theorem accounts (hattained : Attained w R) : Accounts w R := by
  obtain ⟨ids, hreach, -⟩ := hattained
  exact hreach.invariant.accounts.of_twins_eq rfl rfl (by simp)

/-- Without a panic no segments were left behind. -/
theorem reachable (hattained : Attained w R) (hcalm : .panicked ∉ w.journal.toList) :
    Reachable w R := by
  obtain ⟨ids, hreach, hpanicked⟩ := hattained
  obtain rfl : ids = [] := by_contra fun hne => hcalm (hpanicked hne)
  exact hreach.along (Path.refl.cast (zero_add R) rfl)

end Attained

/-- No class occurs twice among the segments of a base. -/
theorem Invariant.distinct_of_live {w : World} {R : Hold} (hinv : Invariant w R) {t : TwinId}
    {a : Twin} (ha : w.twins[t]? = some a) (hlive : a.stage = .live) {b : BaseRange}
    (hb : b ∈ a.layout.bases) : (b.base.flatten.map NativeClass.id).Nodup := by
  have hmem : b.base ∈ a.layout.segments := by
    have hsegments := Twin.segmentsIn_layout hb
    have hself := b.base.mem_flatten_self
    rw [← hsegments] at hself
    exact List.mem_of_mem_take (List.mem_of_mem_drop hself)
  have hkept := hinv.keeps_segments (hinv.keepsKind_of_live ha hlive) hmem
  exact hinv.classed.distinct _ _ hkept

namespace Twin

theorem isReleased_iff (a : Twin) : a.isReleased = true ↔ a.stage ≠ .live := by
  simp [isReleased]

/-- A released twin stays released. -/
theorem Evolves.isReleased {a b : Twin} (hevolves : a.Evolves b) (hreleased : a.isReleased = true) :
    b.isReleased = true := by
  rw [isReleased_iff] at hreleased ⊢
  exact fun hlive => hreleased (hevolves.live hlive)

/-- How many constructed bases of a twin have a segment of a class. -/
def basesWith (id : NativeId) (t : Twin) : Nat :=
  t.builtBases.countP fun b => b.base.flatten.any (·.id = id)

theorem count_segments {bs : List BaseRange} {l : Layout}
    (hsegments : ∀ b ∈ bs, l.segmentsIn b = b.base.flatten)
    (hdistinct : ∀ b ∈ bs, (b.base.flatten.map NativeClass.id).Nodup) (id : NativeId) :
    ((bs.flatMap l.segmentsIn).map NativeClass.id).count id
      = bs.countP fun b => b.base.flatten.any (·.id = id) := by
  induction bs with
  | nil => rfl
  | cons b bs ih =>
      have hrest := ih (fun c hc => hsegments c (List.mem_cons_of_mem b hc))
        fun c hc => hdistinct c (List.mem_cons_of_mem b hc)
      have hmem : id ∈ b.base.flatten.map NativeClass.id
          ↔ b.base.flatten.any (·.id = id) = true := by
        simp
      rw [List.flatMap_cons, List.map_append, List.count_append, hrest, List.countP_cons,
        hsegments b List.mem_cons_self, (hdistinct b List.mem_cons_self).count, Nat.add_comm]
      simp only [hmem]

end Twin

open Session in
/-- The counts of a twin are the numbers of handles to it.  It is released as soon
as both are zero, its release is recorded once, and it stays released, without
contents.  All handles that exist are to twins that are not released, and none was
ever let go without being counted. -/
theorem handles_accounted (depth : Nat) (steps : List Step) :
    let s := after (.nested .memo depth) steps
    (∀ (t : TwinId) (a : Twin), s.world.twins[t]? = some a →
      a.nativeCount = s.allHandles.count (.native t)
      ∧ a.dynamicCount = s.allHandles.count (.dynamic t)
      ∧ (a.isReleased = true ↔ a.nativeCount = 0 ∧ a.dynamicCount = 0)
      ∧ s.world.releaseCount t = (if a.isReleased then 1 else 0)
      ∧ (a.isReleased = true → a.contents = [] ∧ ∀ more, ∃ b,
          (after (.nested .memo depth) (steps ++ more)).world.twins[t]? = some b
            ∧ b.isReleased = true))
    ∧ (∀ h ∈ s.allHandles, ∃ a, s.world.twins[h.twin]? = some a ∧ a.isReleased = false)
    ∧ (∀ h, .overdrawn h ∉ s.world.journal.toList)
    ∧ (s.waiters = [] → s.allHandles = ↑s.world.roots) := by
  intro s
  have haccounts : Accounts s.world s.waiting := (attained_after depth steps).accounts
  have hhandles : s.allHandles = s.world.rootBag + s.waiting.handles := by
    rw [allHandles, World.coe_roots]
  refine ⟨fun t a ha => ?_, fun h hmem => ?_, haccounts.covered, allHandles_of_idle⟩
  · have hreleased : a.isReleased = true ↔ a.nativeCount = 0 ∧ a.dynamicCount = 0 := by
      rw [Twin.isReleased_iff, Ne, haccounts.live t a ha]
      tauto
    refine ⟨?_, ?_, hreleased, ?_, fun hgone => ?_⟩
    · rw [hhandles, ← haccounts.counted, World.tally_eq ha]
      rfl
    · rw [hhandles, ← haccounts.counted, World.tally_eq ha]
      rfl
    · rw [haccounts.released t a ha]
      simp [Twin.isReleased_iff]
    · refine ⟨haccounts.emptied t a ha (a.isReleased_iff.mp hgone), fun more => ?_⟩
      obtain ⟨b, hb, hevolves⟩ := (persists_after depth steps more).twins t a ha
      exact ⟨b, hb, hevolves.isReleased hgone⟩
  · rw [hhandles] at hmem
    obtain ⟨a, ha, hlive⟩ := haccounts.live_of_held ⟨h, hmem, rfl⟩
    exact ⟨a, ha, by simp [Twin.isReleased, hlive]⟩

/-- The segments that stand in constructed bases are as many as there are such bases with one. -/
theorem Reachable.standing_eq {w : World} {R : Hold} (hreach : Reachable w R) (id : NativeId) :
    w.standing id = (w.twins.toList.map (Twin.basesWith id)).sum := by
  refine congrArg List.sum (List.map_congr_left fun a hmem => ?_)
  obtain ⟨t, ht⟩ := List.mem_iff_getElem?.mp hmem
  have ha : w.twins[t]? = some a := by
    rw [← ht, Array.getElem?_toList]
  by_cases hlive : a.stage = .live
  · exact Twin.count_segments (fun b hb => Twin.segmentsIn_layout (Twin.mem_bases_of_built hb))
      (fun b hb => hreach.invariant.distinct_of_live ha hlive (Twin.mem_bases_of_built hb)) id
  · have hnone := hreach.invariant.balanced.razed t a ha hlive
    rw [Twin.standing_of_unconstructed hnone]
    simp [Twin.basesWith, Twin.builtBases, hnone]

/-- Without handles no twin is live, and nothing is constructed in any. -/
theorem Invariant.standing_eq_zero {w : World} {R : Hold} (hinv : Invariant w R)
    (hfree : w.rootBag + R.handles = 0) (id : NativeId) : w.standing id = 0 := by
  refine List.sum_eq_zero_iff_forall_eq_nat.mpr fun n hn => ?_
  obtain ⟨a, hmem, rfl⟩ := List.mem_map.mp hn
  obtain ⟨t, ht⟩ := List.mem_iff_getElem?.mp hmem
  have ha : w.twins[t]? = some a := by
    rw [← ht, Array.getElem?_toList]
  have hnone : ∀ h, w.tally h = 0 := fun h => by
    rw [hinv.accounts.counted, hfree, Multiset.count_zero]
  have hgone : a.stage ≠ .live := by
    rw [Ne, hinv.accounts.live t a ha, not_or, not_not, not_not]
    exact ⟨(World.tally_eq (h := .native t) ha).symm.trans (hnone _),
      (World.tally_eq (h := .dynamic t) ha).symm.trans (hnone _)⟩
  exact Twin.standing_of_unconstructed (hinv.balanced.razed t a ha hgone)

open Session in
/-- As long as no code panics, the segments of a class that were built and not razed
since are as many as there are constructed bases of live twins that have one, and
those that threads built which wait in the middle of a construction, and those that
were built in the place of ones that stood already.  There are none of the last as
long as no thread was started; and without handles no base is left. -/
theorem hooks_balanced (depth : Nat) (steps : List Step) (id : NativeId)
    (hcalm : .panicked ∉ (after (.nested .memo depth) steps).world.journal.toList) :
    let s := after (.nested .memo depth) steps
    let w := s.world
    let standing := (w.twins.toList.map (Twin.basesWith id)).sum
    w.tell (Event.buildsOf id) = w.tell (Event.razesOf id) + standing
        + w.tell (Event.rebuildsOf id) + s.waiting.segments.count id
      ∧ (s.waiters = [] → s.waiting.segments = 0)
      ∧ (w.threads.size = 0 → w.tell (Event.rebuildsOf id) = 0)
      ∧ (s.allHandles = 0 → standing = 0) := by
  intro s w standing
  have hreach : Reachable w s.waiting := (attained_after depth steps).reachable hcalm
  have hbalanced : Balanced w s.waiting := hreach.invariant.balanced
  have hstanding : w.standing id = standing := hreach.standing_eq id
  refine ⟨?_, fun hidle => ?_, fun hthreads => ?_, fun hfree => ?_⟩
  · rw [← hstanding]
    exact hbalanced.balance id
  · simp [waiting, Waiters.hold, hidle]
  · by_contra hne
    exact absurd (hthreads ▸ hbalanced.threaded id hne) (Nat.lt_irrefl 0)
  · rw [← hstanding]
    refine hreach.invariant.standing_eq_zero ?_ id
    rwa [allHandles, World.coe_roots] at hfree

namespace Race

/-- The constructor of the class waits for a signal; its method, which leaves the lock,
initializes the instance. -/
def gauge : NativeSpec :=
  { (default : NativeSpec) with
    name := "Gauge", hooks := ["Gauge"]
    constructors := [⟨[], .everyone, .dynamic (.waitStop "go")⟩]
    methods := [⟨"ready", [], .void, .everyone, .dynamic (.superInit (.tuple []))⟩] }

/-- A dial gets out of its initializer before it is initialized.  Two threads begin to do that,
and both come to the end of it after the signal is set. -/
def steps : List Step :=
  [.declareSignal "go", .declareNative "Gauge" gauge, .setMethodGate "Gauge" "ready" true,
    .declareClass "Dial" "Dial" (some (.native "Gauge")) []
      (some (.seq [.set "x" .this, .raise ⟨"E", "late"⟩])) [] "main",
    .evalDyn (.new "Dial" (.tuple [])) none,
    .spawn "first" (.call (.var "x") "ready" (.tuple [])) "main", .joinTimeout "first",
    .spawn "second" (.call (.var "x") "ready" (.tuple [])) "main", .joinTimeout "second",
    .stop "go", .joinTimeout "second"]

end Race

open Session Race in
theorem hooks_balanced_gauge :
    .panicked ∉ (after (.nested .memo 8) steps).world.journal.toList
      ∧ (after (.nested .memo 8) steps).world.tell (Event.buildsOf ⟨0⟩) = 2
      ∧ (after (.nested .memo 8) steps).world.tell (Event.rebuildsOf ⟨0⟩) = 1 := by
  have hcalm : .panicked ∉ (after (.nested .memo 8) steps).world.journal.toList := by
    decide +kernel
  have hidle : (after (.nested .memo 8) steps).waiters = [] :=
    List.isEmpty_iff.mp (by decide +kernel)
  have hbuilds : (after (.nested .memo 8) steps).world.tell (Event.buildsOf ⟨0⟩) = 2 := by
    decide +kernel
  have hrazes : (after (.nested .memo 8) steps).world.tell (Event.razesOf ⟨0⟩) = 0 := by
    decide +kernel
  have hstanding : ((after (.nested .memo 8) steps).world.twins.toList.map
      (Twin.basesWith ⟨0⟩)).sum = 1 := by
    decide +kernel
  obtain ⟨hbalance, hwaiting, -, -⟩ := hooks_balanced 8 steps ⟨0⟩ hcalm
  simp only [hbuilds, hrazes, hstanding, hwaiting hidle, Multiset.count_zero] at hbalance
  exact ⟨hcalm, hbuilds, by omega⟩

open Session Race in
/-- Of two threads that begin to construct one base both do: two segments are built where one
stands. -/
theorem base_built_twice :
    (after (.nested .memo 8) steps).waiters = []
      ∧ .panicked ∉ (after (.nested .memo 8) steps).world.journal.toList
      ∧ (after (.nested .memo 8) steps).world.tell (Event.buildsOf ⟨0⟩)
        ≠ (after (.nested .memo 8) steps).world.tell (Event.razesOf ⟨0⟩)
          + ((after (.nested .memo 8) steps).world.twins.toList.map (Twin.basesWith ⟨0⟩)).sum := by
  refine ⟨List.isEmpty_iff.mp ?_, ?_, ?_⟩ <;> decide +kernel

end TwinObject
