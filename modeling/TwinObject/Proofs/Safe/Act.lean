/-
Safe steps.  A step of code that cannot fail is safe if it takes a path: what it
uses up was held, what it gives is held afterwards, and what else is held does
not matter.  Twins that are lent to it stay alive as long as the frame is held.
-/
import TwinObject.Proofs.Path

namespace TwinObject

open Hold

/-- Whether what is held keeps a twin alive, by a handle or by a pointer of a
group. -/
def Hold.Lends (F : Hold) (t : TwinId) : Prop :=
  (∃ h, Token.handle h ∈ F ∧ h.twin = t) ∨ ∃ i, Token.shared i t ∈ F

namespace Hold.Lends

variable {F G : Hold} {t : TwinId}

theorem left (hlends : Lends F t) : Lends (F + G) t :=
  hlends.imp (fun ⟨h, hmem, ht⟩ => ⟨h, Multiset.mem_add.mpr (Or.inl hmem), ht⟩)
    fun ⟨i, hmem⟩ => ⟨i, Multiset.mem_add.mpr (Or.inl hmem)⟩

theorem right (hlends : Lends G t) : Lends (F + G) t := by
  rw [add_comm]
  exact hlends.left

theorem of_mem {hs : List Handle} {h : Handle} (hmem : h ∈ hs) : Lends (ofHandles hs) h.twin :=
  Or.inl ⟨h, Multiset.mem_coe.mpr (List.mem_map_of_mem hmem), rfl⟩

/-- A twin that is lent is held. -/
theorem held {w : World} (hlends : Lends F t) (hinv : Invariant w F) : w.Held F t := by
  rcases hlends with ⟨h, hmem, ht⟩ | ⟨i, hmem⟩
  · refine ⟨h, Multiset.mem_add.mpr (Or.inr ?_), ht⟩
    exact (Multiset.mem_filterMap _ _).mpr ⟨_, hmem, rfl⟩
  · have hpointer : (i, t) ∈ F.pointers := (Multiset.mem_filterMap _ _).mpr ⟨_, hmem, rfl⟩
    obtain ⟨g, hg, htarget⟩ := hinv.contained.targets _ hpointer
    have hgroup : i ∈ F.groups := Multiset.mem_map_of_mem Prod.fst hpointer
    have hcount : g.count ≠ 0 := by
      rw [hinv.contained.counted i g hg, Multiset.count_add]
      have := Multiset.count_pos.mpr hgroup
      omega
    have hhandle : Handle.native t ∈ bag SharedGroup.handles w.groups := by
      refine mem_bag hg ?_
      simp [SharedGroup.handles, hcount, htarget]
    refine ⟨.native t, Multiset.mem_add.mpr (Or.inl ?_), rfl⟩
    simp only [World.rootBag, Multiset.mem_add]
    exact Or.inl (Or.inl (Or.inr hhandle))

/-- A twin that is lent is live. -/
theorem live {w : World} (hlends : Lends F t) (hinv : Invariant w F) :
    ∃ a, w.twins[t]? = some a ∧ a.stage = .live :=
  hinv.accounts.live_of_held (hlends.held hinv)

end Hold.Lends

/-- Whether all handles of a list are to twins that are lent. -/
def Hold.LendsAll (F : Hold) (hs : List Handle) : Prop :=
  ∀ h ∈ hs, Lends F h.twin

namespace Hold.LendsAll

variable {F G : Hold} {hs hs' : List Handle}

theorem left (hlent : LendsAll F hs) : LendsAll (F + G) hs :=
  fun h hh => (hlent h hh).left

theorem right (hlent : LendsAll G hs) : LendsAll (F + G) hs :=
  fun h hh => (hlent h hh).right

theorem self (hs : List Handle) : LendsAll (ofHandles hs) hs :=
  fun _ hh => Lends.of_mem hh

theorem subset (hlent : LendsAll F hs) (hsub : ∀ h ∈ hs', h ∈ hs) : LendsAll F hs' :=
  fun h hh => hlent h (hsub h hh)

theorem nil : LendsAll F [] :=
  fun _ hh => by cases hh

end Hold.LendsAll

section Lent

variable {F R take : Hold} {w : World} {t : TwinId}

theorem Reachable.held_of_lent (hreach : Reachable w (R + F + take)) (hlent : Lends F t) :
    w.Held (R + F + take) t :=
  (hlent.right.left).held hreach.invariant

theorem Reachable.live_of_lent (hreach : Reachable w (R + F + take)) (hlent : Lends F t) :
    ∃ a, w.twins[t]? = some a ∧ a.stage = .live :=
  (hlent.right.left).live hreach.invariant

/-- An instance that is lent is in an interpreter that exists. -/
theorem Reachable.home_of_lent (hreach : Reachable w (R + F + take)) (hlent : Lends F t) :
    (w.twin t).interp < w.interps.size ∧ w.Lives t (w.twin t).interp := by
  obtain ⟨a, ha, -⟩ := hreach.live_of_lent hlent
  rw [World.twin_eq ha]
  exact ⟨(hreach.invariant.homed.twins t a ha).exists_interp, a, ha, rfl⟩

theorem Reachable.interpOf_lt (hreach : Reachable w (R + F + take)) {this : Option TwinId}
    (hthis : ∀ t, this = some t → Lends F t) : w.interpOf this < w.interps.size := by
  cases this with
  | none => exact hreach.invariant.homed.seated.mainInterp_lt
  | some t => exact (hreach.home_of_lent (hthis t rfl)).1

end Lent

/-- Whether handles are held from a world on, as long as the frame is. -/
def Hold.Vouches (F : Hold) (w : World) (hs : List Handle) : Prop :=
  ∀ (u : World) (R : Hold), Persists w u → Reachable u (R + F) → ∀ h ∈ hs, u.Held (R + F) h.twin

namespace Hold.Vouches

variable {F G : Hold} {w u : World} {hs hs' : List Handle}

theorem of_lends (hlent : LendsAll F hs) : Vouches F w hs :=
  fun _ _ _ hreach h hh => (hlent h hh).right.held hreach.invariant

theorem mono (hvouches : Vouches F w hs) (hpersists : Persists w u) : Vouches F u hs :=
  fun v R hv => hvouches v R (hpersists.trans hv)

theorem subset (hvouches : Vouches F w hs) (hsub : ∀ h ∈ hs', h ∈ hs) : Vouches F w hs' :=
  fun u R hpersists hreach h hh => hvouches u R hpersists hreach h (hsub h hh)

end Hold.Vouches

/-- What the values of a type hold, if there is one. -/
def Hold.ofOk {ε α : Type} (f : α → Hold) : Except ε α → Hold
  | .ok a => f a
  | .error _ => 0

@[simp] theorem Hold.ofOk_ok {ε α : Type} (f : α → Hold) (a : α) :
    ofOk f (.ok a : Except ε α) = f a := rfl

@[simp] theorem Hold.ofOk_error {ε α : Type} (f : α → Hold) (e : ε) :
    ofOk f (.error e : Except ε α) = 0 := rfl

/-- An outcome without a hold of its own. -/
theorem Hold.ofOk_zero {ε α : Type} (x : Except ε α) : ofOk (fun _ => 0) x = 0 := by
  cases x <;> rfl

def NativeValue.hold (v : NativeValue) : Hold :=
  ofHandles v.handles

def NativeValue.holdAll (vs : List NativeValue) : Hold :=
  ofHandles (vs.flatMap handles)

def DynValue.hold (v : DynValue) : Hold :=
  ofHandles v.handles

def DynValue.holdAll (vs : List DynValue) : Hold :=
  ofHandles (vs.flatMap handles)

/-- A dynamic handle to a twin. -/
def Hold.dynamic (t : TwinId) : Hold :=
  ofHandles [.dynamic t]

def Hold.native (t : TwinId) : Hold :=
  ofHandles [.native t]

theorem Hold.Lends.of_dynamic {F : Hold} (t : TwinId) : Lends (F + Hold.dynamic t) t :=
  Lends.right (Lends.of_mem List.mem_cons_self)

theorem Hold.Lends.of_native {F : Hold} (t : TwinId) : Lends (F + Hold.native t) t :=
  Lends.right (Lends.of_mem List.mem_cons_self)

theorem Hold.mem_left {F G : Hold} {k : Token} (hmem : k ∈ F) : k ∈ F + G :=
  Multiset.mem_add.mpr (Or.inl hmem)

theorem Hold.mem_last {F : Hold} {k : Token} : k ∈ F + {k} :=
  Multiset.mem_add.mpr (Or.inr (Multiset.mem_singleton_self k))

/-- Whether a step from a world is a path.  `F` is held meanwhile, `take` is used
up, and `give` is held afterwards. -/
def Act.Safe {α : Type} (F take : Hold) (give : α → Hold) (w : World) (a : Act α) : Prop :=
  ∀ R, Reachable w (R + F + take) → Path w (R + F + take) (a w).2 (R + F + give (a w).1)

namespace Act.Safe

variable {α β : Type} {F G take mid : Hold} {give : α → Hold} {give' : β → Hold} {w : World}
  {a : Act α} {k : α → Act β}

/-- A step that gives just what it takes. -/
theorem of_path {r : α} {u : World} (ha : a w = (r, u))
    (hpath : ∀ R, Reachable w (R + F + take) → Path w (R + F + take) u (R + F + give r)) :
    Act.Safe F take give w a := by
  intro R hreach
  rw [ha]
  exact hpath R hreach

theorem pure {r : α} (hgive : take = give r) : Act.Safe F take give w (Pure.pure r) := by
  intro R _
  exact Path.refl.cast rfl (by rw [hgive]; rfl)

/-- The second step starts in the world and with the result of the first. -/
theorem bind {g : α → Hold} (ha : Act.Safe F take g w a)
    (hk : Persists w (a w).2 → Act.Safe F (g (a w).1) give' (a w).2 (k (a w).1)) :
    Act.Safe F take give' w (a >>= k) := by
  intro R hreach
  have hfirst := ha R hreach
  exact hfirst.trans (hk hfirst.persists R (hreach.along hfirst))

/-- What is held meanwhile may be more than the step needs. -/
theorem mono (ha : Act.Safe F take give w a) (G : Hold) : Act.Safe (F + G) take give w a := by
  intro R hreach
  have hswap : R + (F + G) = R + G + F := by rw [add_assoc, add_comm G F]
  rw [hswap] at hreach ⊢
  exact ha (R + G) hreach

/-- What is held meanwhile can come along. -/
theorem frame (ha : Act.Safe (F + G) take give w a) :
    Act.Safe F (G + take) (fun r => G + give r) w a := by
  intro R hreach
  have hassoc : ∀ S : Hold, R + F + (G + S) = R + (F + G) + S := fun S => by
    simp only [add_assoc]
  rw [hassoc] at hreach
  exact (ha R hreach).cast (hassoc _) (hassoc _)

theorem cast {take' : Hold} {give₁ : α → Hold} (ha : Act.Safe F take give w a)
    (htake : take' = take) (hgive : ∀ r, give₁ r = give r) : Act.Safe F take' give₁ w a := by
  intro R hreach
  rw [htake] at hreach ⊢
  rw [hgive]
  exact ha R hreach

end Act.Safe

namespace Crossing

variable {F : Hold} {w : World} {hs : List Handle}

theorem discard_safe : Act.Safe F (ofHandles hs) (fun _ => 0) w (discard hs) := by
  intro R _
  exact (Path.drop hs).cast rfl (add_zero _)

theorem keep_safe (hvouches : Vouches F w hs) :
    Act.Safe F 0 (fun _ => ofHandles hs) w (keep hs) := by
  intro R hreach
  rw [add_zero] at hreach
  exact (Path.retainAll hs (hvouches w R (.refl w) hreach)).cast (add_zero _) rfl

end Crossing

end TwinObject
