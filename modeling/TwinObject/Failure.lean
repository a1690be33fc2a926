/-
What can go wrong on either side, and how a failure is worded.  `Thrown` is an
exception of the dynamic side; `Failure` is an error of the native side, which
may carry an exception that is crossing native frames.
-/
import TwinObject.Type

namespace TwinObject

/-- A dynamic exception: the name of its type and its message. -/
structure Thrown where
  kind : String
  message : String
deriving DecidableEq, Repr, Inhabited

namespace Thrown

def typeError (message : String) : Thrown := ⟨"TypeError", message⟩

def runtimeError (message : String) : Thrown := ⟨"RuntimeError", message⟩

/-- The full text, with the message even if it is empty. -/
def text (t : Thrown) : String :=
  t.kind ++ ": " ++ t.message

/-- The text of an exception in flight: an empty message is left out. -/
def what (t : Thrown) : String :=
  if t.message.isEmpty then t.kind else t.text

end Thrown

/-- The two ways to duplicate an instance that a copy policy can forbid. -/
inductive Duplication where
  | copy
  | move
deriving DecidableEq, Repr, Inhabited

def Duplication.text : Duplication → String
  | .copy => "copy"
  | .move => "move"

/-- Why a native call, construction or declaration failed. -/
inductive Failure where
  | abstractInstantiation (className slot : String)
  | abstractMethod (className slot : String)
  | typeMismatch (context expected got : String)
  | propagated (exception : Thrown)
  | constructionAccess (reason : String)
  | incompatibleSignature (method reason : String)
  | noSuchMethod (className method : String)
  | noSuchAttribute (className name : String)
  | copyUnavailable (className : String) (operation : Duplication)
  | constViolation (className method : String)
  | unsupportedComposition (reason : String)
  | native (kind message : String)
deriving DecidableEq, Repr, Inhabited

namespace Failure

def text : Failure → String
  | abstractInstantiation c m =>
      "cannot instantiate abstract class '" ++ c ++ "': pure virtual method '" ++ m
        ++ "' has no override"
  | abstractMethod c m => "abstract method '" ++ c ++ "::" ++ m ++ "' called without an override"
  | typeMismatch ctx e g =>
      "type mismatch in " ++ ctx ++ ": expected " ++ e ++ ", got " ++ g
  | propagated t => t.what
  | constructionAccess reason => reason
  | incompatibleSignature m reason => "incompatible signature for '" ++ m ++ "': " ++ reason
  | noSuchMethod c m => "'" ++ c ++ "' has no method '" ++ m ++ "' matching the given arguments"
  | noSuchAttribute c n => "'" ++ c ++ "' object has no attribute '" ++ n ++ "'"
  | copyUnavailable c op => op.text ++ " of '" ++ c ++ "' is not accessible"
  | constViolation c m =>
      "cannot call non-const method '" ++ m ++ "' through a const reference to '" ++ c ++ "'"
  | unsupportedComposition reason => "unsupported composition: " ++ reason
  | native kind message => kind ++ ": " ++ message

/-- The exception type under which the dynamic side sees a failure. -/
def kindName : Failure → String
  | propagated t => t.kind
  | native kind _ => kind
  | noSuchAttribute .. => "AttributeError"
  | _ => "TypeError"

/-- The text a native `what()` gives. -/
def what (f : Failure) : String :=
  match f with
  | propagated t => t.what
  | native .. => f.text
  | _ => f.kindName ++ ": " ++ f.text

/-- The name of the cause. -/
def label : Failure → String
  | abstractInstantiation .. => "AbstractInstantiation"
  | abstractMethod .. => "AbstractMethod"
  | typeMismatch .. => "TypeMismatch"
  | propagated _ => "Propagated"
  | constructionAccess _ => "ConstructionAccess"
  | incompatibleSignature .. => "IncompatibleSignature"
  | noSuchMethod .. => "NoSuchMethod"
  | noSuchAttribute .. => "NoSuchAttribute"
  | copyUnavailable .. => "CopyUnavailable"
  | constViolation .. => "ConstViolation"
  | unsupportedComposition _ => "UnsupportedComposition"
  | native .. => "Native"

def isPropagated : Failure → Bool
  | propagated _ => true
  | _ => false

/-- The exception a dynamic caller gets for a native failure: a carried or
native exception keeps its own type and message. -/
def raise : Failure → Thrown
  | propagated t => t
  | native kind message => ⟨kind, message⟩
  | f => ⟨f.kindName, f.text⟩

end Failure

/-- An exception of the dynamic side as native frames carry it. -/
def Thrown.capture (t : Thrown) : Failure :=
  .propagated t

@[simp] theorem Thrown.raise_capture (t : Thrown) : t.capture.raise = t := rfl

/-- Diagnostic for a class whose native base has no virtual destructor. -/
structure LifetimeWarning where
  className : String
  base : String
deriving DecidableEq, Repr, Inhabited

namespace LifetimeWarning

def message (w : LifetimeWarning) : String :=
  "class '" ++ w.className ++ "' derives from '" ++ w.base ++ "' which has no virtual destructor"

def text (w : LifetimeWarning) : String :=
  "RuntimeWarning: " ++ w.message

end LifetimeWarning

end TwinObject
