/-
Filling one segment, part by part: its members are reset, a constructor is searched for,
and the body of the one that was chosen runs.  A base is filled if there is one.
-/
import TwinObject.Construct

namespace TwinObject

/-- What was found out in one step is gone on with. -/
theorem Act.bind_then {α β : Type} {a : Act α} {f : α → Act β} {w : World} {r : α}
    (h : (a w).1 = r) : (a >>= f) w = f r (a w).2 := by
  subst h
  rfl

theorem Run.act_then {ε α β : Type} {a : Act α} {k : α → Run ε β} {w : World} {r : α}
    (h : (a w).1 = r) : (Run.act a >>= k) w = k r (a w).2 := by
  subst h
  rfl

theorem Run.reads_then {ε α β : Type} {f : World → α} {k : α → Run ε β} {w : World} {r : α}
    (h : f w = r) : (Run.reads f >>= k) w = k r w :=
  Run.act_then h

namespace Construction

variable (h : Host) (s : Site) (g : ArgGroup) (fromDerived : Bool)

/-- Where the arguments of a segment's constructor are converted. -/
def contextOf : String :=
  "constructor of '" ++ s.cls.name ++ "'"

/-- The search for the constructor of a segment. -/
def searchFor : Act Choice :=
  Choice.search (contextOf s) g fromDerived s.cls.constructors Fit.order false

/-- The body of a constructor that was chosen, with the arguments that were bound for it. -/
def runBody (c : Constructor) (args : List NativeValue) : Run Failure Unit :=
  Run.holding (args.flatMap NativeValue.handles) do
    let result ← h.native { args, site := some s } c.body
    Run.modify (·.drop result.handles)

/-- Why arguments are refused by a class that declares constructors. -/
def refusal (census : Census) : Choice → Failure
  | .inaccessible =>
      .constructionAccess
        ("constructor of '" ++ s.cls.name ++ "' taking " ++ g.describe census
          ++ " is not accessible")
  | _ =>
      .typeMismatch (contextOf s)
        (" or ".intercalate (s.cls.constructors.map Constructor.signature)) (g.describe census)

/-- How filling a segment goes on after its members were reset. -/
def fillReset (v : World) : Course Failure Unit :=
  if s.cls.constructors.isEmpty then
    .ended (if g.isEmpty then .value ()
      else .raised (.typeMismatch (contextOf s) "()" (g.describe v.census))) v
  else
    match (searchFor s g fromDerived v).1 with
    | .chosen c args => runBody h s c args (searchFor s g fromDerived v).2
    | choice => .ended (.raised (refusal s g v.census choice)) (searchFor s g fromDerived v).2

theorem constructOwn_eq (w : World) :
    constructOwn h s g fromDerived w = fillReset h s g fromDerived (resetSegment s w) := by
  change (if s.cls.constructors.isEmpty then _ else _ : Run Failure Unit) (resetSegment s w) = _
  unfold fillReset
  split
  · split <;> rfl
  · cases hfound : (searchFor s g fromDerived (resetSegment s w)).1 with
    | chosen c args => exact Run.act_then hfound
    | inaccessible => exact Run.act_then hfound
    | unfit => exact Run.act_then hfound

section Bases

variable {t : TwinId} {index : Nat} {w : World}

theorem constructBase_of_none (hnone : (w.twin t).layout.baseRange? index = none) :
    constructBase h t index g fromDerived w = .ended
      (.raised (.unsupportedComposition ("no base at position " ++ toString index))) w := by
  unfold constructBase
  exact Run.reads_then (f := fun w => (w.twin t).layout.baseRange? index) hnone

theorem constructBase_of_some {b : BaseRange}
    (hbase : (w.twin t).layout.baseRange? index = some b) :
    constructBase h t index g fromDerived w
      = (Run.filling t (constructClass h t g fromDerived b.base b.start) >>= fun _ =>
        Run.modify (markBuilt t index b.base)) w := by
  unfold constructBase
  exact Run.reads_then (f := fun w => (w.twin t).layout.baseRange? index) hbase

end Bases

end Construction

end TwinObject
