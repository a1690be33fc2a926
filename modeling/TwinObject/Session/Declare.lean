/-
Declarations of a session: native classes, dynamic classes, functions,
interpreters and containers, each under a label or a variable.
-/
import TwinObject.Session.Step

namespace TwinObject

namespace World

/-- Declared items of the given labels; the first label without one is an
error. -/
def findAll {α : Type} (what : String) (find : String → Option α) : List String →
    Except Thrown (List α)
  | [] => .ok []
  | label :: rest =>
      match find label with
      | none => .error ⟨"ScriptError", "no " ++ what ++ " " ++ label⟩
      | some a => do return a :: (← findAll what find rest)

def nativesNamed (w : World) (labels : List String) : Except Thrown (List NativeClass) :=
  findAll "native class" (w.scope.natives.get? ·) labels

def nativeNamed (w : World) (label : String) : Except Thrown NativeClass :=
  (w.scope.natives.get? label).elim (.error ⟨"ScriptError", "no native class " ++ label⟩) .ok

def classNamed (w : World) (label : String) : Except Thrown DynamicClass :=
  (w.scope.classes.get? label).elim (.error ⟨"ScriptError", "no class " ++ label⟩) .ok

def functionNamed (w : World) (label : String) : Except Thrown NativeFunction :=
  (w.scope.functions.get? label).elim (.error ⟨"ScriptError", "no function " ++ label⟩) .ok

def interpNamed (w : World) (label : String) : Except Thrown InterpId :=
  (w.interpNamed? label).elim (.error ⟨"ScriptError", "no interpreter " ++ label⟩) .ok

/-- Declare a member.  The default is given away. -/
def declareMember (name : String) (type : NativeType) (access : Access) (default : NativeValue) :
    Act MemberDecl := fun w =>
  let d := MemberDecl.declare w.census name type access default
  (d, (w.retainAll d.handles).drop default.handles)

/-- Name a native class; the one that had the label before loses it. -/
def nameNative (label : String) (c : NativeClass) (w : World) : World :=
  let old := w.scope.natives.get? label
  let w := { w with scope := { w.scope with natives := w.scope.natives.put label c } }
  old.elim w fun c => w.dropKind (.native c)

/-- Declare a native class under a label.  The handles in its defaults are
given away; a class that cannot be built leaves no trace. -/
def declareNative (label : String) (decl : NativeDecl) : Act (Except Failure Unit) := fun w =>
  match decl.build w.nativeLabel ⟨w.declared.size⟩ with
  | .error f => (.error f, w.drop decl.handles)
  | .ok c => (.ok (), nameNative label c { w with declared := w.declared.push ⟨c, c.ownHandles⟩ })

/-- Bind an attribute and let go of what it was bound to. -/
def bindAttr (state : Attributes × World) (attr : String × DynValue) : Attributes × World :=
  (state.1.put attr.1 attr.2, state.2.drop ((state.1.get? attr.1).elim [] DynValue.handles))

/-- Attributes of a class in the order of their declaration, the last value of
a name counting; the others are let go. -/
def classAttrs (attrs : List (String × DynValue)) (w : World) : Attributes × World :=
  attrs.foldl bindAttr (.withRoom attrs.length, w)

/-- Enter a class that was built: its shadow is registered under every native
class among its segments, and its warnings go to the interpreter. -/
def admitClass (c : DynamicClass) (attrs : Attributes) (w : World) : World :=
  let w := w.modifyInterp c.interp fun s => { s with diagnostics := s.diagnostics ++ c.warnings }
  { w with
    classes := w.classes.push ⟨c, attrs, List.replicate c.vtable.size none⟩
    registry := w.registry ++ c.composition.layout.segments.map fun s => (s.id, c) }

/-- Declare a dynamic class.  The attribute values are given away. -/
def declareClass (decl : ClassDecl) (interp : InterpId) (attrs : List (String × DynValue)) :
    Act (Except Failure DynamicClass) := fun w =>
  match decl.build w.classes.size interp (w.interp interp).options.warnMissingDtor with
  | .error f => (.error f, w.drop (attrs.flatMap (·.2.handles)))
  | .ok c =>
      let (a, w) := classAttrs attrs w
      (.ok c, admitClass c a w)

/-- Name a dynamic class; the one that had the label before loses it. -/
def nameClass (label : String) (c : DynamicClass) (w : World) : World :=
  let old := w.scope.classes.get? label
  let w := { w with scope := { w.scope with classes := w.scope.classes.put label c } }
  old.elim w fun c => w.dropKind (.dynamic c)

def declareFunction (label name : String) (params : List NativeType) (ret : NativeType)
    (body : NativeExpr) (release : Bool) (w : World) : World :=
  let f : NativeFunction := { serial := w.functions, name, params, ret, body }
  { w.setGate f.gate release with
    functions := w.functions + 1
    scope := { w.scope with functions := w.scope.functions.put label f } }

def declareInterp (label : String) (options : InterpOptions) (w : World) : World :=
  { w with
    interps := w.interps.push { options }
    scope := { w.scope with interps := w.scope.interps.put label w.interps.size } }

def declareVec (x element : String) (w : World) : World :=
  setVar x (.vec w.vecs.size) { w with vecs := w.vecs.push ⟨element, [], 1⟩ }

def declareSignal (x : String) (w : World) : World :=
  setVar x (.signal w.signals.size) { w with signals := w.signals.push false }

/-- A world in which nothing but the main interpreter exists. -/
def initial : World :=
  declareInterp "main" {} {}

end World

/-- The foundation of a class declaration, looked up by labels. -/
def BaseRef.find (w : World) : BaseRef → Except Thrown BaseSpec
  | .native label => do return .native (← w.nativeNamed label)
  | .composed labels => do return .composed (← w.nativesNamed labels)
  | .dynamic label => do return .dynamic (← w.classNamed label)

end TwinObject
