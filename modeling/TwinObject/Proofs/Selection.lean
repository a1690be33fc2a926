/-
The rule by which candidates are selected.  Constructors, methods and virtual slots are tried
in loops of their own, but each of them takes the first candidate that fits exactly, or else
the first one that fits with widening; for virtual calls the non-const slots stand before the
const ones.
-/
import TwinObject.Proofs.Fitting

namespace TwinObject

section Rule

variable {α : Type}

theorem Fit.any_order_iff {p : Fit → Bool} : Fit.order.any p = true ↔ ∃ fit, p fit = true := by
  rw [List.any_eq_true]
  refine exists_congr fun fit => and_iff_right ?_
  cases fit <;> simp [order]

/-- The first candidate that fits, in the first pass in which one does. -/
def firstOf? (fits : Fit → α → Bool) (cs : List α) (passes : List Fit) : Option (Fit × α) :=
  passes.findSome? fun fit => (cs.find? (fits fit)).map (fit, ·)

/-- The first candidate that fits exactly, else the first that fits with widening. -/
def firstFit? (fits : Fit → α → Bool) (cs : List α) : Option (Fit × α) :=
  firstOf? fits cs Fit.order

variable {fits : Fit → α → Bool} {cs : List α} {fit : Fit} {passes : List Fit} {c : α}

theorem firstOf?_cons_none (h : cs.find? (fits fit) = none) :
    firstOf? fits cs (fit :: passes) = firstOf? fits cs passes := by
  rw [firstOf?, List.findSome?_cons, h]
  rfl

theorem firstOf?_cons_some (h : cs.find? (fits fit) = some c) :
    firstOf? fits cs (fit :: passes) = some (fit, c) := by
  rw [firstOf?, List.findSome?_cons, h]
  rfl

theorem firstFit?_eq_none_iff :
    firstFit? fits cs = none ↔ ∀ c ∈ cs, ∀ fit, fits fit c = false := by
  simp only [firstFit?, firstOf?, Fit.order, List.findSome?_eq_none_iff, List.mem_cons,
    List.not_mem_nil, or_false, Option.map_eq_none_iff, List.find?_eq_none, Bool.not_eq_true]
  constructor
  · intro h c hc fit
    cases fit
    · exact h .exact (.inl rfl) c hc
    · exact h .widening (.inr rfl) c hc
  · exact fun h fit _ c hc => h c hc fit

theorem of_firstFit? (h : firstFit? fits cs = some (fit, c)) : c ∈ cs ∧ fits fit c = true := by
  obtain ⟨pass, -, hpass⟩ := List.exists_of_findSome?_eq_some h
  obtain ⟨d, hd, heq⟩ := Option.map_eq_some_iff.mp hpass
  cases heq
  exact ⟨List.mem_of_find?_eq_some hd, List.find?_some hd⟩

end Rule

/-- How a candidate is tried: the arguments for it, if they fit. -/
abbrev Trial (α : Type) := α → Fit → Act (Option (List NativeValue))

namespace Trial

variable {α : Type} {trial : Trial α} {cs ds : List α} {c : α} {fit : Fit} {w u x y : World}
  {args : List NativeValue}

/-- Whether a candidate that is tried in a world fits. -/
def fits (trial : Trial α) (w : World) (fit : Fit) (c : α) : Bool :=
  (trial c fit w).1.isSome

/-- Whether trials change no twin that is there, and come out the same whatever was tried
before. -/
structure Steady (trial : Trial α) (cs : List α) (w : World) : Prop where
  rests : ∀ c fit (u : World), u.Rests (trial c fit u).2
  same : ∀ c ∈ cs, ∀ fit u, w.Rests u → (trial c fit u).1.isSome = trial.fits w fit c

/-- Whether arguments are what a candidate got when it was tried on the way from one world to
another. -/
def Gives (trial : Trial α) (w x : World) (fit : Fit) (c : α) (args : List NativeValue) : Prop :=
  ∃ u, w.Rests u ∧ (trial c fit u).1 = some args ∧ (trial c fit u).2.Rests x

theorem Gives.later (h : trial.Gives w x fit c args) (hlater : x.Rests y) :
    trial.Gives w y fit c args := by
  obtain ⟨u, hu, hargs, hx⟩ := h
  exact ⟨u, hu, hargs, hx.trans hlater⟩

namespace Steady

variable (h : trial.Steady cs w)

include h

theorem subset (hsub : ∀ d ∈ ds, d ∈ cs) : trial.Steady ds w :=
  ⟨h.rests, fun d hd => h.same d (hsub d hd)⟩

theorem step (hu : w.Rests u) (c : α) (fit : Fit) : w.Rests (trial c fit u).2 :=
  hu.trans (h.rests c fit u)

theorem misses (hu : w.Rests u) (hc : c ∈ cs) (hfits : trial.fits w fit c = false) :
    (trial c fit u).1 = none := by
  have hnone := (h.same c hc fit u hu).trans hfits
  rwa [Option.isSome_eq_false_iff, Option.isNone_iff_eq_none] at hnone

theorem gives (hu : w.Rests u) (hc : c ∈ cs) (hfits : trial.fits w fit c = true) :
    ∃ args, (trial c fit u).1 = some args ∧ trial.Gives w (trial c fit u).2 fit c args := by
  obtain ⟨args, hargs⟩ := Option.isSome_iff_exists.mp ((h.same c hc fit u hu).trans hfits)
  exact ⟨args, hargs, u, hu, hargs, .refl _⟩

theorem rests_of_gives (hgives : trial.Gives w x fit c args) : w.Rests x := by
  obtain ⟨u, hu, -, hx⟩ := hgives
  exact (h.step hu c fit).trans hx

end Steady

end Trial

section Methods

variable {convert : List NativeType → Fit → Act (Option (List NativeValue))}
  {ds : List MethodDecl} {d : MethodDecl} {fit : Fit} {passes : List Fit} {w u : World}

/-- How the overloads of a method are tried. -/
def MethodDecl.trial (convert : List NativeType → Fit → Act (Option (List NativeValue))) :
    Trial MethodDecl :=
  fun d fit => convert d.params fit

namespace Call

open MethodDecl

theorem attempt_some (h : (trial convert).Steady ds w) (hu : w.Rests u)
    (hfind : ds.find? ((trial convert).fits w fit) = some d) :
    ∃ args x, pickOverload.attempt convert fit ds u = (some (d, args), x)
      ∧ (trial convert).Gives w x fit d args := by
  induction ds generalizing u with
  | nil => cases hfind
  | cons e ds ih =>
      rw [pickOverload.attempt]
      cases hfits : (trial convert).fits w fit e with
      | true =>
          rw [List.find?_cons_of_pos hfits] at hfind
          cases hfind
          obtain ⟨args, hargs, hgives⟩ := h.gives hu List.mem_cons_self hfits
          exact ⟨args, _, Act.bind_then hargs, hgives⟩
      | false =>
          rw [List.find?_cons_of_neg (Bool.eq_false_iff.mp hfits)] at hfind
          obtain ⟨args, x, hattempt, hgives⟩ :=
            ih (h.subset fun _ => List.mem_cons_of_mem e) (h.step hu e fit) hfind
          exact ⟨args, x, (Act.bind_then (h.misses hu List.mem_cons_self hfits)).trans hattempt,
            hgives⟩

theorem attempt_none (h : (trial convert).Steady ds w) (hu : w.Rests u)
    (hfind : ds.find? ((trial convert).fits w fit) = none) :
    ∃ x, pickOverload.attempt convert fit ds u = (none, x) ∧ w.Rests x := by
  induction ds generalizing u with
  | nil => exact ⟨u, rfl, hu⟩
  | cons e ds ih =>
      rw [pickOverload.attempt]
      have hfits : (trial convert).fits w fit e = false :=
        Bool.eq_false_iff.mpr (List.find?_eq_none.mp hfind e List.mem_cons_self)
      rw [List.find?_cons_of_neg (Bool.eq_false_iff.mp hfits)] at hfind
      obtain ⟨x, hattempt, hx⟩ :=
        ih (h.subset fun _ => List.mem_cons_of_mem e) (h.step hu e fit) hfind
      exact ⟨x, (Act.bind_then (h.misses hu List.mem_cons_self hfits)).trans hattempt, hx⟩

theorem pickOverload_some (h : (trial convert).Steady ds w) (hu : w.Rests u)
    (hfirst : firstOf? ((trial convert).fits w) ds passes = some (fit, d)) :
    ∃ args x, pickOverload convert ds passes u = (some (d, args), x)
      ∧ (trial convert).Gives w x fit d args := by
  induction passes generalizing u with
  | nil => cases hfirst
  | cons pass passes ih =>
      rw [pickOverload]
      cases hfind : ds.find? ((trial convert).fits w pass) with
      | some e =>
          rw [firstOf?_cons_some hfind] at hfirst
          cases hfirst
          obtain ⟨args, x, hattempt, hgives⟩ := attempt_some h hu hfind
          refine ⟨args, x, ?_, hgives⟩
          rw [Act.bind_then (congrArg Prod.fst hattempt), hattempt]
          rfl
      | none =>
          rw [firstOf?_cons_none hfind] at hfirst
          obtain ⟨x, hattempt, hx⟩ := attempt_none h hu hfind
          rw [Act.bind_then (congrArg Prod.fst hattempt), hattempt]
          exact ih hx hfirst

theorem pickOverload_none (h : (trial convert).Steady ds w) (hu : w.Rests u)
    (hfirst : firstOf? ((trial convert).fits w) ds passes = none) :
    ∃ x, pickOverload convert ds passes u = (none, x) ∧ w.Rests x := by
  induction passes generalizing u with
  | nil => exact ⟨u, rfl, hu⟩
  | cons pass passes ih =>
      rw [pickOverload]
      cases hfind : ds.find? ((trial convert).fits w pass) with
      | some e =>
          rw [firstOf?_cons_some hfind] at hfirst
          cases hfirst
      | none =>
          rw [firstOf?_cons_none hfind] at hfirst
          obtain ⟨x, hattempt, hx⟩ := attempt_none h hu hfind
          rw [Act.bind_then (congrArg Prod.fst hattempt), hattempt]
          exact ih hx hfirst

end Call

end Methods

section Constructors

variable {context : String} {g : ArgGroup} {fromDerived : Bool} {cs : List Constructor}
  {c : Constructor} {fit : Fit} {passes : List Fit} {w u : World}

/-- How constructors are tried with a group of arguments. -/
def Constructor.trial (context : String) (g : ArgGroup) : Trial Constructor :=
  fun c fit => c.bind context fit g

/-- The constructors that may be called. -/
def Constructor.visible (fromDerived : Bool) (cs : List Constructor) : List Constructor :=
  cs.filter fun c => c.access.visible fromDerived

namespace Choice

open Constructor

theorem among_some (hidden : Bool) (h : (trial context g).Steady cs w) (hu : w.Rests u)
    (hfind : (visible fromDerived cs).find? ((trial context g).fits w fit) = some c) :
    ∃ args x, among context fit g fromDerived cs hidden u = (.inl (.chosen c args), x)
      ∧ (trial context g).Gives w x fit c args := by
  induction cs generalizing u hidden with
  | nil => cases hfind
  | cons d cs ih =>
      have hrest := h.subset fun _ => List.mem_cons_of_mem d
      rw [among]
      cases hfits : (trial context g).fits w fit d with
      | false =>
          have hskip : (visible fromDerived cs).find? ((trial context g).fits w fit) = some c := by
            rw [visible, List.filter_cons] at hfind
            split at hfind
            · rwa [List.find?_cons_of_neg (Bool.eq_false_iff.mp hfits)] at hfind
            · exact hfind
          obtain ⟨args, x, hamong, hgives⟩ := ih hidden hrest (h.step hu d fit) hskip
          exact ⟨args, x, (Act.bind_then (h.misses hu List.mem_cons_self hfits)).trans hamong,
            hgives⟩
      | true =>
          obtain ⟨args, hargs, hgives⟩ := h.gives hu List.mem_cons_self hfits
          have hbound : (d.bind context fit g u).1 = some args := hargs
          rw [Act.bind_then hbound]
          dsimp only
          split
          · rename_i hvisible
            have hcons : visible fromDerived (d :: cs) = d :: visible fromDerived cs :=
              List.filter_cons_of_pos hvisible
            rw [hcons, List.find?_cons_of_pos hfits] at hfind
            cases hfind
            exact ⟨args, _, rfl, hgives⟩
          · rename_i hhidden
            have hcons : visible fromDerived (d :: cs) = visible fromDerived cs :=
              List.filter_cons_of_neg hhidden
            rw [hcons] at hfind
            exact ih true hrest
              ((h.step hu d fit).trans (World.Still.drop _ _).rests) hfind

theorem among_none (hidden : Bool) (h : (trial context g).Steady cs w) (hu : w.Rests u)
    (hfind : (visible fromDerived cs).find? ((trial context g).fits w fit) = none) :
    ∃ x, among context fit g fromDerived cs hidden u
        = (.inr (hidden || cs.any ((trial context g).fits w fit)), x)
      ∧ w.Rests x := by
  induction cs generalizing u hidden with
  | nil => exact ⟨u, by rw [among, List.any_nil, Bool.or_false]; rfl, hu⟩
  | cons d cs ih =>
      have hrest := h.subset fun _ => List.mem_cons_of_mem d
      have hlater : (visible fromDerived cs).find? ((trial context g).fits w fit) = none := by
        rw [List.find?_eq_none] at hfind ⊢
        exact fun e he => hfind e (((List.sublist_cons_self d cs).filter _).subset he)
      rw [among, List.any_cons]
      cases hfits : (trial context g).fits w fit d with
      | false =>
          have hmiss : (d.bind context fit g u).1 = none := h.misses hu List.mem_cons_self hfits
          rw [Act.bind_then hmiss, Bool.false_or]
          exact ih hidden hrest (h.step hu d fit) hlater
      | true =>
          obtain ⟨args, hargs, -⟩ := h.gives hu List.mem_cons_self hfits
          have hbound : (d.bind context fit g u).1 = some args := hargs
          rw [Act.bind_then hbound]
          dsimp only
          split
          · rename_i hvisible
            have hmem : d ∈ visible fromDerived (d :: cs) :=
              List.mem_filter.mpr ⟨List.mem_cons_self, hvisible⟩
            exact absurd hfits (List.find?_eq_none.mp hfind d hmem)
          · rw [Bool.true_or, Bool.or_true, ← Bool.true_or (cs.any _)]
            exact ih true hrest
              ((h.step hu d fit).trans (World.Still.drop _ _).rests) hlater

theorem search_some (hidden : Bool) (h : (trial context g).Steady cs w) (hu : w.Rests u)
    (hfirst : firstOf? ((trial context g).fits w) (visible fromDerived cs) passes
      = some (fit, c)) :
    ∃ args x, search context g fromDerived cs passes hidden u = (.chosen c args, x)
      ∧ (trial context g).Gives w x fit c args := by
  induction passes generalizing u hidden with
  | nil => cases hfirst
  | cons pass passes ih =>
      rw [search]
      cases hfind : (visible fromDerived cs).find? ((trial context g).fits w pass) with
      | some e =>
          rw [firstOf?_cons_some hfind] at hfirst
          cases hfirst
          obtain ⟨args, x, hamong, hgives⟩ := among_some hidden h hu hfind
          refine ⟨args, x, ?_, hgives⟩
          rw [Act.bind_then (congrArg Prod.fst hamong), hamong]
          rfl
      | none =>
          rw [firstOf?_cons_none hfind] at hfirst
          obtain ⟨x, hamong, hx⟩ := among_none hidden h hu hfind
          rw [Act.bind_then (congrArg Prod.fst hamong), hamong]
          exact ih _ hx hfirst

/-- Without a visible constructor that fits it makes a difference whether a hidden one does. -/
theorem search_none (hidden : Bool) (h : (trial context g).Steady cs w) (hu : w.Rests u)
    (hfirst : firstOf? ((trial context g).fits w) (visible fromDerived cs) passes = none) :
    ∃ x, search context g fromDerived cs passes hidden u
        = (if hidden || passes.any fun fit => cs.any ((trial context g).fits w fit)
            then .inaccessible else .unfit, x)
      ∧ w.Rests x := by
  induction passes generalizing u hidden with
  | nil =>
      refine ⟨u, ?_, hu⟩
      cases hidden <;> rfl
  | cons pass passes ih =>
      rw [search]
      cases hfind : (visible fromDerived cs).find? ((trial context g).fits w pass) with
      | some e =>
          rw [firstOf?_cons_some hfind] at hfirst
          cases hfirst
      | none =>
          rw [firstOf?_cons_none hfind] at hfirst
          obtain ⟨x, hamong, hx⟩ := among_none hidden h hu hfind
          rw [Act.bind_then (congrArg Prod.fst hamong), hamong, List.any_cons, ← Bool.or_assoc]
          exact ih _ hx hfirst

end Choice

end Constructors

section Slots

variable {conv : Conversion Act} {constOnly : Bool} {fit : Fit} {passes : List Fit}
  {slots : List (Nat × Slot)} {e : Nat × Slot} {first? : Option (Nat × Slot)} {c : Candidates}
  {w u x : World} {table : VTable} {name : String}

/-- How the slots of a name are tried. -/
def Conversion.trial (conv : Conversion Act) : Trial (Nat × Slot) :=
  fun e fit => conv.convert e.2.key.params fit

/-- Whether a selection is a slot with what it got when it was tried. -/
def Conversion.Reaches (conv : Conversion Act) (w x : World) (fit : Fit) (e : Nat × Slot)
    (s : Selection) : Prop :=
  s.index = e.1 ∧ conv.trial.Gives w x fit e s.args

theorem Conversion.Reaches.later {y : World} {s : Selection} (h : conv.Reaches w x fit e s)
    (hlater : x.Rests y) : conv.Reaches w y fit e s :=
  ⟨h.1, h.2.later hlater⟩

/-- The non-const slots that may be called. -/
def Slot.plain (constOnly : Bool) (slots : List (Nat × Slot)) : List (Nat × Slot) :=
  slots.filter fun e => !constOnly && !e.2.key.isConst

/-- The const slots. -/
def Slot.const (slots : List (Nat × Slot)) : List (Nat × Slot) :=
  slots.filter fun e => e.2.key.isConst

/-- Whether a non-const slot fits that must not be called. -/
def Slot.withheld (constOnly : Bool) (fits : Nat × Slot → Bool) (slots : List (Nat × Slot)) :
    Bool :=
  constOnly && slots.any fun e => !e.2.key.isConst && fits e

/-- The slots of a name that may be called, the non-const ones before the const ones. -/
def VTable.eligible (table : VTable) (name : String) (constOnly : Bool) : List (Nat × Slot) :=
  Slot.plain constOnly (table.slotsNamed name) ++ Slot.const (table.slotsNamed name)

/-- Whether what a pass remembers is the const slot that was the first to fit. -/
abbrev Conversion.Pending (conv : Conversion Act) (w x : World) (fit : Fit) :
    Option (Nat × Slot) → Option Selection → Prop :=
  Option.Rel (conv.Reaches w x fit)

theorem Conversion.Pending.later {y : World} {pending : Option Selection}
    (h : conv.Pending w x fit first? pending) (hlater : x.Rests y) :
    conv.Pending w y fit first? pending := by
  cases h with
  | none => exact .none
  | some hreaches => exact .some (hreaches.later hlater)

namespace Candidates

variable (hdiscard : ∀ args (v : World), v.Rests (conv.discard args v).2)
  (h : conv.trial.Steady (e :: slots) w) (hu : w.Rests u)

section Steps

include h hu

theorem scan_cons_of_misses (hfits : conv.trial.fits w fit e = false) :
    scan conv constOnly fit (e :: slots) c u = scan conv constOnly fit slots c
      (conv.trial e fit u).2 := by
  have hmisses : (conv.convert e.2.key.params fit u).1 = none :=
    h.misses hu List.mem_cons_self hfits
  rw [scan, Act.bind_then hmisses]
  rfl

include hdiscard

/-- A const slot that fits is remembered unless another one is. -/
theorem scan_cons_of_const (hfits : conv.trial.fits w fit e = true)
    (hconst : e.2.key.isConst = true) (hpending : conv.Pending w u fit first? c.pending) :
    ∃ c' x, scan conv constOnly fit (e :: slots) c u = scan conv constOnly fit slots c' x
      ∧ u.Rests x ∧ c'.blocked = c.blocked ∧ c'.found = c.found
      ∧ conv.Pending w x fit (first?.or (some e)) c'.pending := by
  obtain ⟨args, hargs, hgives⟩ := h.gives hu List.mem_cons_self hfits
  have hconverted : (conv.convert e.2.key.params fit u).1 = some args := hargs
  have htried := h.rests e fit u
  rw [scan, Act.bind_then hconverted]
  dsimp only
  rw [if_pos hconst]
  obtain ⟨pending, blocked, found⟩ := c
  cases hpending with
  | none => exact ⟨_, _, rfl, htried, rfl, rfl, .some ⟨rfl, hgives⟩⟩
  | some hreaches =>
      have hlet := htried.trans (hdiscard args _)
      exact ⟨_, _, rfl, hlet, rfl, rfl, .some (hreaches.later hlet)⟩

/-- A non-const slot that fits is noted where only const ones may be called. -/
theorem scan_cons_of_withheld (hfits : conv.trial.fits w fit e = true)
    (hplain : e.2.key.isConst = false) :
    ∃ x, scan conv true fit (e :: slots) c u = scan conv true fit slots { c with blocked := true } x
      ∧ u.Rests x := by
  obtain ⟨args, hargs, -⟩ := h.gives hu List.mem_cons_self hfits
  have hconverted : (conv.convert e.2.key.params fit u).1 = some args := hargs
  rw [scan, Act.bind_then hconverted]
  dsimp only
  rw [if_neg (Bool.eq_false_iff.mp hplain)]
  exact ⟨_, rfl, (h.rests e fit u).trans (hdiscard args _)⟩

/-- A non-const slot that fits ends the pass where it may be called. -/
theorem scan_cons_of_plain (hfits : conv.trial.fits w fit e = true)
    (hplain : e.2.key.isConst = false) :
    ∃ c' s x, scan conv false fit (e :: slots) c u = (c', x) ∧ c'.found = some s
      ∧ conv.Reaches w x fit e s := by
  obtain ⟨args, hargs, hgives⟩ := h.gives hu List.mem_cons_self hfits
  have hconverted : (conv.convert e.2.key.params fit u).1 = some args := hargs
  rw [scan, Act.bind_then hconverted]
  dsimp only
  rw [if_neg (Bool.eq_false_iff.mp hplain)]
  cases c.pending with
  | none => exact ⟨_, ⟨e.1, args⟩, _, rfl, rfl, rfl, hgives⟩
  | some other => exact ⟨_, ⟨e.1, args⟩, _, rfl, rfl, rfl, hgives.later (hdiscard other.args _)⟩

end Steps

include hdiscard

/-- A pass ends at the first non-const slot that fits and may be called. -/
theorem scan_plain (h : conv.trial.Steady slots w) (hu : w.Rests u)
    (hfind : (Slot.plain constOnly slots).find? (conv.trial.fits w fit) = some e)
    (hpending : conv.Pending w u fit first? c.pending) :
    ∃ c' s x, scan conv constOnly fit slots c u = (c', x) ∧ c'.found = some s
      ∧ conv.Reaches w x fit e s := by
  induction slots generalizing u c first? with
  | nil => cases hfind
  | cons d slots ih =>
      have hrest := h.subset fun _ => List.mem_cons_of_mem d
      rw [Slot.plain, List.find?_filter] at hfind
      cases hfits : conv.trial.fits w fit d with
      | false =>
          rw [List.find?_cons_of_neg (by simp [hfits]), ← List.find?_filter] at hfind
          rw [scan_cons_of_misses h hu hfits]
          exact ih hrest (h.step hu d fit) hfind (hpending.later (h.rests d fit u))
      | true =>
          cases hconst : d.2.key.isConst with
          | true =>
              rw [List.find?_cons_of_neg (by simp [hconst]), ← List.find?_filter] at hfind
              obtain ⟨c', x, hscan, hx, -, -, hfirst⟩ :=
                scan_cons_of_const hdiscard h hu hfits hconst hpending
              rw [hscan]
              exact ih hrest (hu.trans hx) hfind hfirst
          | false =>
              cases constOnly with
              | true =>
                  rw [List.find?_cons_of_neg (by simp), ← List.find?_filter] at hfind
                  obtain ⟨x, hscan, hx⟩ := scan_cons_of_withheld hdiscard h hu hfits hconst
                  rw [hscan]
                  exact ih hrest (hu.trans hx) hfind (hpending.later hx)
              | false =>
                  rw [List.find?_cons_of_pos (by simp [hfits, hconst])] at hfind
                  cases hfind
                  exact scan_cons_of_plain hdiscard h hu hfits hconst

/-- A pass without such a slot remembers the first const one that fits, and whether one fits
that must not be called. -/
theorem scan_const (h : conv.trial.Steady slots w) (hu : w.Rests u)
    (hfind : (Slot.plain constOnly slots).find? (conv.trial.fits w fit) = none)
    (hpending : conv.Pending w u fit first? c.pending) :
    ∃ c' x, scan conv constOnly fit slots c u = (c', x) ∧ w.Rests x ∧ c'.found = c.found
      ∧ c'.blocked = (c.blocked || Slot.withheld constOnly (conv.trial.fits w fit) slots)
      ∧ conv.Pending w x fit (first?.or ((Slot.const slots).find? (conv.trial.fits w fit)))
        c'.pending := by
  induction slots generalizing u c first? with
  | nil =>
      refine ⟨c, u, rfl, hu, rfl, ?_, ?_⟩
      · rw [Slot.withheld, List.any_nil, Bool.and_false, Bool.or_false]
      · rw [Slot.const, List.filter_nil, List.find?_nil, Option.or_none]
        exact hpending
  | cons d slots ih =>
      have hrest := h.subset fun _ => List.mem_cons_of_mem d
      rw [Slot.plain, List.find?_filter] at hfind
      rw [Slot.const, List.find?_filter, Slot.withheld, List.any_cons]
      cases hfits : conv.trial.fits w fit d with
      | false =>
          rw [List.find?_cons_of_neg (by simp [hfits]), ← List.find?_filter] at hfind ⊢
          rw [scan_cons_of_misses h hu hfits, Bool.and_false, Bool.false_or]
          exact ih hrest (h.step hu d fit) hfind (hpending.later (h.rests d fit u))
      | true =>
          cases hconst : d.2.key.isConst with
          | true =>
              rw [List.find?_cons_of_neg (by simp [hconst]), ← List.find?_filter] at hfind
              obtain ⟨c', x, hscan, hx, hblocked, hfound, hfirst⟩ :=
                scan_cons_of_const hdiscard h hu hfits hconst hpending
              rw [hscan, List.find?_cons_of_pos (by simp [hconst, hfits]), Bool.not_true,
                Bool.false_and, Bool.false_or, ← hblocked, ← hfound]
              obtain ⟨c'', y, hlater, hy, hfound', hblocked', hfirst'⟩ :=
                ih hrest (hu.trans hx) hfind hfirst
              refine ⟨c'', y, hlater, hy, hfound', hblocked', ?_⟩
              rwa [Option.or_assoc, Option.some_or] at hfirst'
          | false =>
              cases constOnly with
              | true =>
                  rw [List.find?_cons_of_neg (by simp), ← List.find?_filter] at hfind
                  obtain ⟨x, hscan, hx⟩ := scan_cons_of_withheld hdiscard h hu hfits hconst
                  rw [hscan, List.find?_cons_of_neg (by simp [hconst]), ← List.find?_filter]
                  obtain ⟨c', y, hlater, hy, hfound, hblocked, hfirst⟩ :=
                    ih (c := { c with blocked := true }) hrest (hu.trans hx) hfind
                      (hpending.later hx)
                  refine ⟨c', y, hlater, hy, hfound, ?_, hfirst⟩
                  rw [hblocked]
                  simp
              | false =>
                  rw [List.find?_cons_of_pos (by simp [hfits, hconst])] at hfind
                  cases hfind

/-- What a pass ends with is the first slot that fits, the non-const ones before the const ones. -/
theorem scan_some (h : conv.trial.Steady slots w) (hu : w.Rests u) (blocked : Bool)
    (hfind : (Slot.plain constOnly slots ++ Slot.const slots).find? (conv.trial.fits w fit)
      = some e) :
    ∃ c s x, scan conv constOnly fit slots { blocked } u = (c, x) ∧ c.found.or c.pending = some s
      ∧ conv.Reaches w x fit e s := by
  rw [List.find?_append] at hfind
  cases hplain : (Slot.plain constOnly slots).find? (conv.trial.fits w fit) with
  | some d =>
      rw [hplain, Option.some_or] at hfind
      cases hfind
      obtain ⟨c, s, x, hscan, hfound, hreaches⟩ :=
        scan_plain hdiscard h hu hplain (c := { blocked }) .none
      exact ⟨c, s, x, hscan, by rw [hfound, Option.some_or], hreaches⟩
  | none =>
      rw [hplain, Option.none_or] at hfind
      obtain ⟨⟨pending, blocked', found⟩, x, hscan, -, hfound, -, hpending⟩ :=
        scan_const hdiscard h hu hplain (c := { blocked }) .none
      cases hfound
      rw [Option.none_or, hfind] at hpending
      cases hpending with
      | some hreaches => exact ⟨_, _, x, hscan, rfl, hreaches⟩

/-- A pass in which none fits ends with none. -/
theorem scan_none (h : conv.trial.Steady slots w) (hu : w.Rests u) (blocked : Bool)
    (hfind : (Slot.plain constOnly slots ++ Slot.const slots).find? (conv.trial.fits w fit)
      = none) :
    ∃ c x, scan conv constOnly fit slots { blocked } u = (c, x) ∧ c.found = none
      ∧ c.pending = none
      ∧ c.blocked = (blocked || Slot.withheld constOnly (conv.trial.fits w fit) slots)
      ∧ w.Rests x := by
  rw [List.find?_append, Option.or_eq_none_iff] at hfind
  obtain ⟨⟨pending, blocked', found⟩, x, hscan, hx, hfound, hblocked, hpending⟩ :=
    scan_const hdiscard h hu hfind.1 (c := { blocked }) .none
  rw [hfind.2] at hpending
  cases hpending
  exact ⟨_, x, hscan, hfound, rfl, hblocked, hx⟩

end Candidates

namespace VTable

theorem find?_eligible (table : VTable) (name : String) (constOnly : Bool)
    (p : Nat × Slot → Bool) : (table.eligible name constOnly).find? p
    = ((Slot.plain constOnly (table.slotsNamed name)).find? p).or
      ((Slot.const (table.slotsNamed name)).find? p) :=
  List.find?_append

variable (hdiscard : ∀ args (v : World), v.Rests (conv.discard args v).2)
  (h : conv.trial.Steady (table.slotsNamed name) w) (hu : w.Rests u)

include hdiscard h hu

/-- The first slot that fits is reached. -/
theorem resolvePasses_some (className : String) (blocked : Bool)
    (hfirst : firstOf? (conv.trial.fits w) (table.eligible name constOnly) passes
      = some (fit, e)) :
    ∃ s x, table.resolvePasses conv className name constOnly passes blocked u = (.ok s, x)
      ∧ conv.Reaches w x fit e s := by
  induction passes generalizing u blocked with
  | nil => cases hfirst
  | cons pass passes ih =>
      rw [resolvePasses]
      cases hfind : (table.eligible name constOnly).find? (conv.trial.fits w pass) with
      | some d =>
          rw [firstOf?_cons_some hfind] at hfirst
          cases hfirst
          obtain ⟨⟨pending, blocked', found⟩, s, x, hscan, hs, hreaches⟩ :=
            Candidates.scan_some hdiscard h hu blocked hfind
          refine ⟨s, x, ?_, hreaches⟩
          rw [Act.bind_then (congrArg Prod.fst hscan), hscan]
          cases found with
          | some s' => cases hs; rfl
          | none =>
              cases pending with
              | some s' => cases hs; rfl
              | none => cases hs
      | none =>
          rw [firstOf?_cons_none hfind] at hfirst
          obtain ⟨⟨pending, blocked', found⟩, x, hscan, hfound, hpending, -, hx⟩ :=
            Candidates.scan_none hdiscard h hu blocked hfind
          cases hfound
          cases hpending
          rw [Act.bind_then (congrArg Prod.fst hscan), hscan]
          exact ih hx _ hfirst

/-- Without a slot that fits it makes a difference whether one does that must not be called. -/
theorem resolvePasses_none (className : String) (blocked : Bool)
    (hfirst : firstOf? (conv.trial.fits w) (table.eligible name constOnly) passes = none) :
    ∃ x, table.resolvePasses conv className name constOnly passes blocked u
        = (.error (if blocked || passes.any fun fit =>
            Slot.withheld constOnly (conv.trial.fits w fit) (table.slotsNamed name)
          then .constViolation className name else .noSuchMethod className name), x)
      ∧ w.Rests x := by
  induction passes generalizing u blocked with
  | nil =>
      refine ⟨u, ?_, hu⟩
      rw [resolvePasses, List.any_nil, Bool.or_false]
      rfl
  | cons pass passes ih =>
      rw [resolvePasses]
      cases hfind : (table.eligible name constOnly).find? (conv.trial.fits w pass) with
      | some d =>
          rw [firstOf?_cons_some hfind] at hfirst
          cases hfirst
      | none =>
          rw [firstOf?_cons_none hfind] at hfirst
          obtain ⟨⟨pending, blocked', found⟩, x, hscan, hfound, hpending, hblocked, hx⟩ :=
            Candidates.scan_none hdiscard h hu blocked hfind
          cases hfound
          cases hpending
          rw [Act.bind_then (congrArg Prod.fst hscan), hscan, List.any_cons, ← Bool.or_assoc,
            ← hblocked]
          exact ih hx _ hfirst

end VTable

end Slots

namespace Crossing

variable {α : Type} {params : α → List NativeType} {cs : List α} {w : World}

/-- It makes no difference which candidates were tried with the arguments of a dynamic caller. -/
theorem steady_argsToNative (context : String) {args : List DynValue}
    (hhas : w.Has (args.flatMap DynValue.handles)) :
    Trial.Steady (fun c fit => argsToNative context args (params c) fit) cs w where
  rests _ _ := argsToNative_rests context
  same c _ fit _ hu :=
    (isSome_argsToNative context hhas hu (params c) fit).trans
      (isSome_argsToNative context hhas (.refl w) (params c) fit).symm

/-- It makes no difference which candidates were tried with the arguments of a native caller. -/
theorem steady_coerceArgs {args : List NativeValue}
    (hhas : w.Has (args.flatMap NativeValue.handles)) :
    Trial.Steady (fun c fit => coerceArgs args (params c) fit) cs w where
  rests _ _ := coerceArgs_rests
  same c _ fit _ hu :=
    (isSome_coerceArgs hhas hu (params c) fit).trans
      (isSome_coerceArgs hhas (.refl w) (params c) fit).symm

end Crossing

end TwinObject
