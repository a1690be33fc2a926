/-
Calls of the body that a class itself has.  Whether an instance may be asked for one is told
by names: if none of the classes that it is made of has the name of the class that is asked
for, the call fails and runs nothing.  If one of them has it, the call goes on through the
table of the class that is asked for, which need not be one of them.
-/
import TwinObject.Proofs.ByValue

namespace TwinObject

open Hold

namespace NativeClass

mutual

theorem isA_iff (name : String) :
    (c : NativeClass) → (c.isA name = true ↔ ∃ s ∈ c.flatten, s.name = name)
  | ⟨_, own, parents, _, _, _, _, _, _, _⟩ => by
      simp only [isA, flatten, Bool.or_eq_true, decide_eq_true_eq, anyIsA_iff name parents,
        List.mem_append, List.mem_singleton]
      constructor
      · rintro (rfl | ⟨s, hs, rfl⟩)
        · exact ⟨_, .inr rfl, rfl⟩
        · exact ⟨s, .inl hs, rfl⟩
      · rintro ⟨s, hs | rfl, rfl⟩
        · exact .inr ⟨s, hs, rfl⟩
        · exact .inl rfl

theorem anyIsA_iff (name : String) :
    (cs : List NativeClass) → (anyIsA name cs = true ↔ ∃ s ∈ flattenAll cs, s.name = name)
  | [] => by simp [anyIsA, flattenAll]
  | c :: cs => by
      simp only [anyIsA, flattenAll, Bool.or_eq_true, isA_iff name c, anyIsA_iff name cs,
        List.mem_append, or_and_right, exists_or]

end

end NativeClass

namespace Kind

variable {k : Kind} {name : String}

/-- Whether one of the classes that an instance is made of has a name: a native one, or one of
the chain of its dynamic class. -/
def HasName (k : Kind) (name : String) : Prop :=
  (∃ s ∈ k.layout.segments, s.name = name) ∨ ∃ d ∈ k.chain, d.name = name

/-- Whether a native class is a base of an instance, or an ancestor of one. -/
def Comprises (k : Kind) (c : NativeClass) : Prop :=
  ∃ s ∈ k.layout.segments, s.id = c.id

theorem isA_iff_hasName : k.isA name = true ↔ k.HasName name := by
  have hsegments : k.layout.isA name = true ↔ ∃ s ∈ k.layout.segments, s.name = name := by
    simp [Layout.isA]
  unfold isA HasName
  rw [Bool.or_eq_true, hsegments]
  cases k with
  | native c =>
      have hbase : c.isA name = true → ∃ s ∈ (native c).layout.segments, s.name = name := by
        rw [NativeClass.isA_iff]
        rintro ⟨s, hs, hname⟩
        exact ⟨s, List.mem_flatMap.mpr ⟨c, List.mem_singleton_self c, hs⟩, hname⟩
      exact ⟨fun h => .inl (h.elim id hbase), fun h => h.imp_right nofun⟩
  | dynamic c =>
      have hbases : c.composition.contains name = true →
          ∃ s ∈ (dynamic c).layout.segments, s.name = name := by
        intro hcontains
        obtain ⟨b, hb, hisA⟩ := List.any_eq_true.mp hcontains
        obtain ⟨s, hs, hname⟩ := (NativeClass.isA_iff name b).mp hisA
        exact ⟨s, List.mem_flatMap.mpr ⟨b, hb, hs⟩, hname⟩
      have hchain : c.chain.any (fun d => d.name = name) = true
          ↔ ∃ d ∈ (dynamic c).chain, d.name = name := by
        simp [chain]
      simp only [DynamicClass.isA, Bool.or_eq_true, hchain]
      exact ⟨fun h => h.elim .inl fun h => h.elim .inr fun h => .inl (hbases h),
        fun h => h.imp_right .inl⟩

end Kind

/-- A class that is declared has its name when an instance comprises it. -/
theorem Attained.hasName_of_comprises {w : World} {R : Hold} {t : TwinId} {c : NativeClass}
    (hattained : Attained w R) (hlent : Lends R t) (hkeeps : w.Keeps c)
    (hcomprises : (w.twin t).kind.Comprises c) : (w.twin t).kind.HasName c.name := by
  obtain ⟨s, hs, hid⟩ := hcomprises
  obtain ⟨a, ha, hlive⟩ := hattained.alive_of_lent hlent
  rw [World.twin_eq ha] at hs ⊢
  obtain ⟨ids, hreach, -⟩ := hattained
  have hstate := hreach.invariant.keeps_segments
    (hreach.invariant.keepsKind_of_live ha hlive) hs
  rw [hid, hkeeps c c.mem_flatten_self] at hstate
  exact .inl ⟨s, hs, congrArg (·.cls.name) (Option.some.inj hstate).symm⟩

namespace Call

variable {h : Host} {w : World} {R : Hold} {t : TwinId} {c : NativeClass} {name : String}

theorem kind_retainAll (ht : t < w.twins.size) (hs : List Handle) :
    ((w.retainAll hs).twin t).kind = (w.twin t).kind :=
  ((World.Still.retainAll w hs).rests.at_twin ht).kind

/-- Dynamic code holds the instance while it is asked, and lets go of it again. -/
theorem callBaseDynamic_misfit (hattained : Attained w R) (hlent : Lends R t)
    (hisA : ¬(w.twin t).kind.isA c.name = true) (args : List DynValue) :
    callBaseDynamic h t c name args w
      = .ended (.raised (baseMisfit (w.twin t).kind c name)) w := by
  have hkind := kind_retainAll (hattained.lt_of_lends hlent) [.native t]
  have hdropped : (w.retainAll [.native t]).drop [.native t] = w :=
    hattained.drop_retain (h := .native t) (hattained.lt_of_lends hlent)
  rw [← hkind] at hisA ⊢
  exact (callBaseDynamic_raised (callBaseWith_misfit hisA)).trans (by rw [hdropped])

end Call

/-- A call of the body that a class itself has for a name is answered with a mismatch if none
of the classes that the instance is made of has the name of that class: whoever runs the
bodies, from native and from dynamic code, nothing is run, and the world stays as it is.
If one of them has the name, then the call goes on through the slots of the class that is asked
for.  So a class that the instance comprises is never refused; and where the name tells that
class apart from all the others, no other class is let through. -/
theorem base_calls_by_name (h : Host) {w : World} {R : Hold} {t : TwinId}
    (hattained : Attained w R) (hlent : R.Lends t) (c : NativeClass) (name : String) :
    (¬(w.twin t).kind.HasName c.name →
      (∀ args, Call.callBaseNative h t c name args w
        = .ended (.raised (Call.baseMisfit (w.twin t).kind c name)) w)
      ∧ ∀ args, DynOp.callBase h t c name args w
        = .ended (.raised (Call.baseMisfit (w.twin t).kind c name).raise) w)
    ∧ ((w.twin t).kind.HasName c.name → ∀ s slot x, c.vtable.get? s.index = some slot →
      (∀ args, c.vtable.resolve (Crossing.fromNative args) c.name name false w = (.ok s, x) →
        Call.callBaseNative h t c name args w
          = Call.withArgs s.args (Call.runDefault h slot (Call.pureCall slot) t s.args) x)
      ∧ ∀ args, c.vtable.resolve
          (Crossing.fromDynamic ("argument of '" ++ c.name ++ "::" ++ name ++ "'") args) c.name
            name false (w.retainAll [.native t]) = (.ok s, x) →
        DynOp.callBase h t c name args w
          = Run.mapError Failure.raise (Call.runBase h t (s.index, slot) s.args) x)
    ∧ (w.Keeps c → (w.twin t).kind.Comprises c → (w.twin t).kind.HasName c.name)
    ∧ ((∀ s ∈ (w.twin t).layout.segments, s.name = c.name → s.id = c.id) →
      (∀ d ∈ (w.twin t).kind.chain, d.name ≠ c.name) →
        (w.twin t).kind.HasName c.name → (w.twin t).kind.Comprises c) := by
  simp only [← Kind.isA_iff_hasName]
  refine ⟨fun hisA => ⟨fun args => ?_, fun args => ?_⟩, fun hisA s slot x hslot =>
    ⟨fun args hresolve => ?_, fun args hresolve => ?_⟩, fun hkeeps hcomprises => ?_,
    fun hnative hdynamic hisA => ?_⟩
  · exact Call.callBaseWith_misfit hisA
  · exact Run.mapError_raised (Call.callBaseDynamic_misfit hattained hlent hisA args)
  · exact Call.callBaseWith_ok hisA hresolve hslot
  · rw [← Call.kind_retainAll (hattained.lt_of_lends hlent) [.native t]] at hisA
    exact Run.mapError_congr _ (Call.callBaseDynamic_ok hisA hresolve hslot)
  · exact Kind.isA_iff_hasName.mpr (hattained.hasName_of_comprises hlent hkeeps hcomprises)
  · rcases Kind.isA_iff_hasName.mp hisA with ⟨s, hs, hname⟩ | ⟨d, hd, hname⟩
    · exact ⟨s, hs, hnative s hs hname⟩
    · exact absurd hname (hdynamic d hd)

namespace Gauge

/-- A class that a gauge has nothing to do with. -/
def reader (id : Nat) (name : String) : NativeClass :=
  { (default : NativeClass) with
    id := ⟨id⟩
    name
    vtable := ⟨[⟨⟨"read", [], false⟩, .int, name, some (.lit (.int 5))⟩]⟩ }

end Gauge

open Gauge in
theorem base_calls_by_name_gauge :
    ¬(empty.twin 0).kind.HasName "Reader"
    ∧ Call.callBaseNative (.nested .memo 1) 0 (reader 1 "Reader") "read" [] empty
      = .ended (.raised (.typeMismatch "base call 'Reader::read'" "Reader" "Gauge")) empty
    ∧ DynOp.callBase (.nested .memo 1) 0 (reader 1 "Reader") "read" [] empty
      = .ended (.raised (Failure.typeMismatch "base call 'Reader::read'" "Reader" "Gauge").raise)
        empty := by
  have hother : ¬(empty.twin 0).kind.HasName "Reader" := by
    rw [← Kind.isA_iff_hasName]
    decide
  obtain ⟨hnative, hdynamic⟩ := (base_calls_by_name (.nested .memo 1) empty_attained lent
    (reader 1 "Reader") "read").1 hother
  exact ⟨hother, hnative [], hdynamic []⟩

open Gauge in
/-- A class that a gauge has nothing to do with is let through under its name. -/
theorem base_call_of_namesake :
    ¬(empty.twin 0).kind.Comprises (reader 1 "Gauge")
    ∧ (∃ u, Call.callBaseNative (.nested .memo 1) 0 (reader 1 "Gauge") "read" [] empty
      = .ended (.value (.int 5)) u)
    ∧ ∃ u, DynOp.callBase (.nested .memo 1) 0 (reader 1 "Gauge") "read" [] empty
      = .ended (.value (.int 5)) u := by
  refine ⟨?_, ?_, ?_⟩
  · rintro ⟨s, hs, hid⟩
    obtain rfl := List.mem_singleton.mp hs
    exact absurd hid (by decide)
  · with_unfolding_all exact ⟨_, rfl⟩
  · with_unfolding_all exact ⟨_, rfl⟩

end TwinObject
