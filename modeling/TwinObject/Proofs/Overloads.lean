/-
Selection among overloads.  Constructors and methods are selected by one rule, the first that
fits exactly or else the first that fits with widening.  What may be called differs: constructors
and methods called from dynamic code must be visible, native code calls any method.
-/
import TwinObject.Proofs.Binding
import TwinObject.Proofs.Resolution

namespace TwinObject

namespace NativeClass

mutual

/-- A class and its ancestors, each class before its parents. -/
def descent : NativeClass → List NativeClass
  | c@⟨_, _, parents, _, _, _, _, _, _, _⟩ => c :: descents parents

def descents : List NativeClass → List NativeClass
  | [] => []
  | p :: ps => p.descent ++ descents ps

end

/-- The overloads of a method that a class declares itself. -/
def overloads (name : String) (c : NativeClass) : List MethodDecl :=
  c.methods.filter fun d => d.name = name

def declares (name : String) (c : NativeClass) : Bool :=
  !(c.overloads name).isEmpty

mutual

theorem findMethod?_eq (name : String) : (c : NativeClass) → c.findMethod? name
    = (c.descent.find? (declares name)).map fun d => (d.id, d.overloads name)
  | ⟨_, _, parents, _, _, _, methods, _, _, _⟩ => by
      rw [findMethod?, descent, List.find?_cons, declares, overloads]
      cases hown : methods.filter fun d => d.name = name with
      | nil => exact findMethodAmong?_eq name parents
      | cons d ds => exact congrArg (fun own => some (_, own)) hown.symm

theorem findMethodAmong?_eq (name : String) : (cs : List NativeClass) → findMethodAmong? name cs
    = ((descents cs).find? (declares name)).map fun d => (d.id, d.overloads name)
  | [] => rfl
  | p :: ps => by
      rw [findMethodAmong?, descents, List.find?_append, findMethod?_eq name p,
        findMethodAmong?_eq name ps]
      cases p.descent.find? (declares name) <;> rfl

end

end NativeClass

namespace Layout

/-- The class whose overloads of a method are called: the first to declare any, along the bases
and their ancestors. -/
def declaring? (l : Layout) (name : String) : Option NativeClass :=
  (l.bases.flatMap fun b => b.base.descent).find? (NativeClass.declares name)

theorem findMethod?_eq (l : Layout) (name : String) :
    l.findMethod? name = (l.declaring? name).map fun d => (d.id, d.overloads name) := by
  rw [findMethod?, declaring?]
  induction l.bases with
  | nil => rfl
  | cons b bs ih =>
      rw [List.findSome?_cons, List.flatMap_cons, List.find?_append, ih, b.base.findMethod?_eq]
      cases b.base.descent.find? (NativeClass.declares name) <;> rfl

end Layout

namespace Construction

variable (h : Host) (s : Site) (g : ArgGroup) (fromDerived : Bool) (w : World)

/-- Whether a constructor of a segment fits, whose members were reset before. -/
def fits (fit : Fit) (c : Constructor) : Bool :=
  (c.bind (contextOf s) fit g (resetSegment s w)).1.isSome

/-- How a segment is filled. -/
structure Selects : Prop where
  /-- The body of the visible constructor is run that is the first to fit. -/
  chosen : ∀ fit c, firstFit? (fits s g w) (Constructor.visible fromDerived s.cls.constructors)
      = some (fit, c) →
    ∃ args u, constructOwn h s g fromDerived w = runBody h s c args u
      ∧ c.Binds g (resetSegment s w) u args
  hidden : (∀ c ∈ s.cls.constructors, c.access.visible fromDerived = true →
      ∀ fit, fits s g w fit c = false) →
    (∃ c ∈ s.cls.constructors, ∃ fit, fits s g w fit c = true) →
    ∃ text u, constructOwn h s g fromDerived w = .ended (.raised (.constructionAccess text)) u
  unfit : s.cls.constructors ≠ [] → (∀ c ∈ s.cls.constructors, ∀ fit, fits s g w fit c = false) →
    ∃ expected got u, constructOwn h s g fromDerived w
      = .ended (.raised (.typeMismatch (contextOf s) expected got)) u
  undeclared : s.cls.constructors = [] → ∃ expected got u, constructOwn h s g fromDerived w
    = .ended (if g.isEmpty then .value ()
        else .raised (.typeMismatch (contextOf s) expected got)) u

variable {h s g fromDerived w}

theorem size_resetSegment (s : Site) (w : World) :
    (resetSegment s w).twins.size = w.twins.size := by
  unfold resetSegment
  split
  · rfl
  · rw [(World.Still.drop _ _).size, World.modifyTwin, Array.size_modify,
      (World.Still.retainAll w _).size]

section Declared

variable {c : Constructor} {args : List NativeValue} {u : World}
  (hsome : s.cls.constructors ≠ [])

include hsome

theorem constructOwn_of_chosen
    (hsearch : searchFor s g fromDerived (resetSegment s w) = (.chosen c args, u)) :
    constructOwn h s g fromDerived w = runBody h s c args u := by
  rw [constructOwn_eq, fillReset, if_neg (by simpa using hsome)]
  split
  · rename_i d args' hchosen
    cases (congrArg Prod.fst hsearch).symm.trans hchosen
    exact congrArg (runBody h s c args) (congrArg Prod.snd hsearch)
  · rename_i hrefused
    exact absurd (congrArg Prod.fst hsearch) (hrefused c args)

theorem constructOwn_of_refused {choice : Choice}
    (hsearch : searchFor s g fromDerived (resetSegment s w) = (choice, u))
    (hrefused : ∀ c args, choice ≠ .chosen c args) :
    constructOwn h s g fromDerived w
      = .ended (.raised (refusal s g (resetSegment s w).census choice)) u := by
  rw [constructOwn_eq, fillReset, if_neg (by simpa using hsome)]
  split
  · rename_i d args' hchosen
    exact absurd ((congrArg Prod.fst hsearch).symm.trans hchosen) (hrefused d args')
  · rw [hsearch]

end Declared

theorem selects (hhas : w.Has (g.handles ++ s.cls.constructors.flatMap Constructor.handles)) :
    Selects h s g fromDerived w := by
  have hreset : (resetSegment s w).Has
      (g.handles ++ s.cls.constructors.flatMap Constructor.handles) :=
    fun x hx => (hhas x hx).trans_eq (size_resetSegment s w).symm
  have hsteady := Constructor.steady hreset (contextOf s)
  constructor
  case chosen =>
    intro fit c hfirst
    obtain ⟨args, u, hsearch, hgives⟩ := Choice.search_some false hsteady (.refl _) hfirst
    have hmem : c ∈ s.cls.constructors := (List.mem_filter.mp (of_firstFit? hfirst).1).1
    exact ⟨args, u, constructOwn_of_chosen (List.ne_nil_of_mem hmem) hsearch,
      Constructor.binds (Constructor.has_of_mem hreset hmem) hgives⟩
  case hidden =>
    rintro hvisible ⟨c, hmem, fit, hfits⟩
    have hnone : firstFit? (fits s g w) (Constructor.visible fromDerived s.cls.constructors)
        = none := firstFit?_eq_none_iff.mpr fun d hd =>
      hvisible d (List.mem_filter.mp hd).1 (List.mem_filter.mp hd).2
    obtain ⟨u, hsearch, -⟩ := Choice.search_none false hsteady (.refl _) hnone
    rw [Bool.false_or, if_pos (Fit.any_order_iff.mpr ⟨fit, List.any_eq_true.mpr ⟨c, hmem, hfits⟩⟩)]
      at hsearch
    exact ⟨_, u, constructOwn_of_refused (List.ne_nil_of_mem hmem) hsearch nofun⟩
  case unfit =>
    intro hsome hnone
    have hfirst : firstFit? (fits s g w) (Constructor.visible fromDerived s.cls.constructors)
        = none := firstFit?_eq_none_iff.mpr fun d hd => hnone d (List.mem_filter.mp hd).1
    obtain ⟨u, hsearch, -⟩ := Choice.search_none false hsteady (.refl _) hfirst
    have hhidden : ¬(Fit.order.any fun fit => s.cls.constructors.any
        ((Constructor.trial (contextOf s) g).fits (resetSegment s w) fit)) = true := by
      rw [Fit.any_order_iff]
      rintro ⟨fit, hany⟩
      obtain ⟨c, hmem, hfits⟩ := List.any_eq_true.mp hany
      cases hfits.symm.trans (hnone c hmem fit)
    rw [Bool.false_or, if_neg hhidden] at hsearch
    exact ⟨_, _, u, constructOwn_of_refused hsome hsearch nofun⟩
  case undeclared =>
    intro hempty
    refine ⟨"()", g.describe (resetSegment s w).census, resetSegment s w, ?_⟩
    rw [constructOwn_eq, fillReset, if_pos (by simp [hempty])]

end Construction

namespace Run

variable {ε α : Type} {m k : Run ε α} {w u : World}

/-- Code that goes on alike goes on alike while handles are held. -/
theorem holding_congr (hs : List Handle) (h : m w = k u) :
    holding hs m w = holding hs k u :=
  congrArg (Course.andThen (hs.map .handle) fun e w => again e (w.drop hs)) h

end Run

namespace Call

section Pick

variable {a : Arguments} {ms : List MethodDecl} {m : MethodDecl} {fit : Fit} {w u : World}
  (hhas : w.Has a.handles) (hu : w.Rests u)

include hhas hu

theorem pickOverload_first
    (hfirst : firstFit? (fun fit m => a.fits w fit m.params) ms = some (fit, m)) :
    ∃ ns x, pickOverload a.conversion.convert ms Fit.order u = (some (m, ns), x)
      ∧ a.Become w x m.params ns := by
  have hsteady : (MethodDecl.trial a.conversion.convert).Steady ms w := Arguments.steady hhas
  obtain ⟨ns, x, hpick, hgives⟩ := pickOverload_some hsteady hu hfirst
  exact ⟨ns, x, hpick, Arguments.become_of_gives MethodDecl.params hhas hgives⟩

theorem pickOverload_unfit (hnone : ∀ m ∈ ms, ∀ fit, a.fits w fit m.params = false) :
    ∃ x, pickOverload a.conversion.convert ms Fit.order u = (none, x) := by
  have hsteady : (MethodDecl.trial a.conversion.convert).Steady ms w := Arguments.steady hhas
  obtain ⟨x, hpick, -⟩ := pickOverload_none hsteady hu (firstFit?_eq_none_iff.mpr hnone)
  exact ⟨x, hpick⟩

end Pick

variable (h : Host) (t : TwinId) (name : String)

section Native

variable (args : List NativeValue) (w : World)

/-- How a method is selected for a native caller. -/
structure SelectsNative : Prop where
  /-- The body of the overload is run that is the first to fit. -/
  chosen : ∀ c fit m, (w.twin t).layout.declaring? name = some c →
    firstFit? (fun fit m => (Arguments.native args).fits w fit m.params) (c.overloads name)
      = some (fit, m) →
    ∃ ns u, callMethodNative h t name args w
        = withArgs ns (h.native { this := some t, args := ns } m.body) u
      ∧ (Arguments.native args).Become w u m.params ns
  unfit : ∀ c, (w.twin t).layout.declaring? name = some c →
    (∀ m ∈ c.overloads name, ∀ fit, (Arguments.native args).fits w fit m.params = false) →
    ∃ u, callMethodNative h t name args w
      = .ended (.raised (.noSuchMethod (w.twin t).name name)) u
  undeclared : (w.twin t).layout.declaring? name = none →
    callMethodNative h t name args w = .ended (.raised (.noSuchMethod (w.twin t).name name)) w

variable {args w}

theorem selectsNative (hhas : w.Has (args.flatMap NativeValue.handles)) :
    SelectsNative h t name args w := by
  have hfound (c : NativeClass) (hc : (w.twin t).layout.declaring? name = some c) :
      (w.twin t).kind.layout.findMethod? name = some (c.id, c.overloads name) := by
    rw [Layout.findMethod?_eq]
    exact congrArg (Option.map _) hc
  constructor
  case chosen =>
    intro c fit m hc hfirst
    obtain ⟨ns, u, hpick, hbecome⟩ := pickOverload_first hhas (.refl w) hfirst
    refine ⟨ns, u, ?_, hbecome⟩
    unfold callMethodNative
    rw [Run.reads_then (f := fun w => (w.twin t).kind) rfl, hfound c hc]
    exact (Run.act_then (congrArg Prod.fst hpick)).trans
      (congrArg (withArgs ns _) (congrArg Prod.snd hpick))
  case unfit =>
    intro c hc hnone
    obtain ⟨u, hpick⟩ := pickOverload_unfit hhas (.refl w) hnone
    refine ⟨u, ?_⟩
    unfold callMethodNative
    rw [Run.reads_then (f := fun w => (w.twin t).kind) rfl, hfound c hc]
    exact (Run.act_then (congrArg Prod.fst hpick)).trans
      (congrArg (Course.ended _) (congrArg Prod.snd hpick))
  case undeclared =>
    intro hnone
    have hmissing : (w.twin t).kind.layout.findMethod? name = none := by
      rw [Layout.findMethod?_eq]
      exact congrArg (Option.map _) hnone
    unfold callMethodNative
    rw [Run.reads_then (f := fun w => (w.twin t).kind) rfl, hmissing]
    rfl

end Native

section Dynamic

variable (args : List DynValue) (w : World)

/-- The arguments of a dynamic call of a method. -/
def argumentsOf (name : String) (args : List DynValue) : Arguments :=
  .dynamic ("argument of '" ++ name ++ "'") args

/-- The body of a method on behalf of dynamic code. -/
def runMethod (i : InterpId) (declaring : NativeId) (ns : List NativeValue) (body : NativeExpr) :
    Run Failure DynValue :=
  withArgs ns do
    let r ← gated i (.method declaring name) (h.native { this := some t, args := ns } body)
    Run.act (Crossing.toDynamic r)

/-- How a method is selected for a dynamic caller. -/
structure SelectsDynamic : Prop where
  /-- The body of the visible overload is run that is the first to fit. -/
  chosen : ∀ c fit m, (w.twin t).layout.declaring? name = some c →
    firstFit? (fun fit m => (argumentsOf name args).fits w fit m.params)
      ((c.overloads name).filter fun m => m.access.visible (w.twin t).kind.fromDerived)
      = some (fit, m) →
    ∃ ns u, callNativeMethod h t name args w
        = Run.holding [.native t] (runMethod h t name (w.twin t).interp c.id ns m.body) u
      ∧ (argumentsOf name args).Become w u m.params ns
  unfit : ∀ c, (w.twin t).layout.declaring? name = some c →
    (∀ m ∈ c.overloads name, m.access.visible (w.twin t).kind.fromDerived = true →
      ∀ fit, (argumentsOf name args).fits w fit m.params = false) →
    ∃ u, callNativeMethod h t name args w
      = .ended (.raised (.noSuchMethod (w.twin t).name name)) u
  undeclared : (w.twin t).layout.declaring? name = none → ∃ u, callNativeMethod h t name args w
    = .ended (.raised (.noSuchAttribute (w.twin t).name name)) u

variable {args w}

theorem twin_retained (ht : t < w.twins.size) :
    (w.retainAll [.native t]).twin t = (w.twin t).retain (.native t) := by
  have ha := Array.getElem?_eq_getElem ht
  have hretained : (w.retainAll [.native t]).twins[t]? = some (w.twins[t].retain (.native t)) := by
    have hself : (Handle.native t).twin = t := rfl
    rw [World.retainAll, List.foldl_cons, List.foldl_nil, World.retain, World.getElem?_modifyTwin,
      if_pos hself, ha, Option.map_some]
  rw [World.twin_eq hretained, World.twin_eq ha]

section Plain

variable (ht : t < w.twins.size) (hplain : (w.twin t).kind.vtable.hasMethod name = false)

include ht hplain

/-- A name without virtual slots is looked up among the methods. -/
theorem callNativeMethod_plain : callNativeMethod h t name args w
    = Run.holding [.native t] (match (w.twin t).layout.declaring? name with
      | none => Run.raise (.noSuchAttribute (w.twin t).name name)
      | some c => do
          match ← Run.act (pickOverload (argumentsOf name args).conversion.convert
            ((c.overloads name).filter fun m => m.access.visible (w.twin t).kind.fromDerived)
            Fit.order) with
          | none => Run.raise (.noSuchMethod (w.twin t).name name)
          | some (m, ns) => runMethod h t name (w.twin t).interp c.id ns m.body)
      (w.retainAll [.native t]) := by
  have hfound : ((w.twin t).retain (.native t)).layout.findMethod? name
      = ((w.twin t).layout.declaring? name).map fun c => (c.id, c.overloads name) :=
    Layout.findMethod?_eq (w.twin t).layout name
  have hslots : ¬((w.twin t).retain (.native t)).kind.vtable.hasMethod name = true :=
    Bool.eq_false_iff.mp hplain
  refine Run.holding_congr _ ?_
  rw [Run.reads_then (f := fun w => w.twin t) (twin_retained t ht)]
  dsimp only
  rw [if_neg hslots, hfound]
  cases (w.twin t).layout.declaring? name <;> rfl

theorem selectsDynamic (hhas : w.Has (args.flatMap DynValue.handles)) :
    SelectsDynamic h t name args w := by
  have hu := (World.Still.retainAll w [.native t]).rests
  constructor
  case chosen =>
    intro c fit m hc hfirst
    obtain ⟨ns, u, hpick, hbecome⟩ := pickOverload_first hhas hu hfirst
    refine ⟨ns, u, ?_, hbecome⟩
    rw [callNativeMethod_plain h t name ht hplain, hc]
    exact Run.holding_congr _ ((Run.act_then (congrArg Prod.fst hpick)).trans
      (congrArg (runMethod h t name _ _ ns m.body) (congrArg Prod.snd hpick)))
  case unfit =>
    intro c hc hnone
    obtain ⟨u, hpick⟩ := pickOverload_unfit hhas hu fun m hm =>
      hnone m (List.mem_filter.mp hm).1 (List.mem_filter.mp hm).2
    refine ⟨u.drop [.native t], ?_⟩
    rw [callNativeMethod_plain h t name ht hplain, hc]
    exact Run.holding_congr (k := Run.raise _) _ ((Run.act_then (congrArg Prod.fst hpick)).trans
      (congrArg (Course.ended _) (congrArg Prod.snd hpick)))
  case undeclared =>
    intro hnone
    refine ⟨(w.retainAll [.native t]).drop [.native t], ?_⟩
    rw [callNativeMethod_plain h t name ht hplain, hnone]
    rfl

end Plain

end Dynamic

end Call

/-- Constructors and methods are selected by one rule: the first that fits exactly, or else the
first that fits with widening. -/
theorem overloads_selected (h : Host) (w : World) (s : Site) (g : ArgGroup) (fromDerived : Bool)
    (t : TwinId) (name : String) (dynArgs : List DynValue) (nativeArgs : List NativeValue)
    (hgroup : w.Has (g.handles ++ s.cls.constructors.flatMap Constructor.handles))
    (ht : t < w.twins.size) (hdynamic : w.Has (dynArgs.flatMap DynValue.handles))
    (hnative : w.Has (nativeArgs.flatMap NativeValue.handles)) :
    Construction.Selects h s g fromDerived w
    ∧ ((w.twin t).kind.vtable.hasMethod name = false → Call.SelectsDynamic h t name dynArgs w)
    ∧ Call.SelectsNative h t name nativeArgs w :=
  ⟨Construction.selects hgroup,
    fun hplain => Call.selectsDynamic h t name ht hplain hdynamic,
    Call.selectsNative h t name hnative⟩

/-! A dial is made for a number, and for an integer by derived classes only; then it can be turned
by either. -/

namespace Dial

def forInteger : Constructor := ⟨[⟨"level", .int, none⟩], .derived, .log "made for an integer"⟩

def forNumber : Constructor := ⟨[⟨"level", .double, none⟩], .everyone, .log "made for a number"⟩

def byNumber : MethodDecl := ⟨"turn", [.double], .void, .everyone, .log "turned by a number"⟩

def byInteger : MethodDecl := ⟨"turn", [.int], .void, .everyone, .log "turned by an integer"⟩

def dial : NativeClass :=
  { (default : NativeClass) with
    name := "Dial"
    constructors := [forInteger, forNumber]
    methods := [byNumber, byInteger] }

def site : Site := ⟨0, 0, dial⟩

def seven : ArgGroup := { positional := [.int 7] }

def host : Host := .nested .memo 3

def world : World :=
  ({ World.initial with declared := #[⟨dial, []⟩] }.admitTwin (.fresh 0 (.native dial) .native)).1

end Dial

open Dial in
theorem overloads_selected_dial :
    (∃ args u, Construction.constructOwn host site seven false world
      = Construction.runBody host site forNumber args u)
    ∧ (∃ ns u, Call.callNativeMethod host 0 "turn" [.int 7] world
      = Run.holding [.native 0]
        (Call.runMethod host 0 "turn" (world.twin 0).interp dial.id ns byInteger.body) u)
    ∧ ∃ ns u, Call.callMethodNative host 0 "turn" [.double 7] world
      = Call.withArgs ns (host.native { this := some 0, args := ns } byNumber.body) u := by
  have hplain : ∀ hs, hs = [] → world.Has hs := by
    rintro hs rfl x hx
    cases hx
  obtain ⟨hconstructors, hdynamic, hnative⟩ := overloads_selected host world site seven false 0
    "turn" [.int 7] [.double 7] (hplain _ rfl) Nat.zero_lt_one (hplain _ rfl) (hplain _ rfl)
  have hwidened : firstFit? (Construction.fits site seven world)
      (Constructor.visible false dial.constructors) = some (.widening, forNumber) := by
    with_unfolding_all rfl
  obtain ⟨args, u, hmade, -⟩ := hconstructors.chosen .widening forNumber hwidened
  obtain ⟨ns, v, hturned, -⟩ := (hdynamic rfl).chosen dial .exact byInteger rfl rfl
  obtain ⟨ns', v', hturned', -⟩ := hnative.chosen dial .exact byNumber rfl rfl
  exact ⟨⟨args, u, hmade⟩, ⟨ns, v, hturned⟩, ns', v', hturned'⟩

end TwinObject
