import TestDouble.Descriptor.CustomMethod

/-!
# Definitions of methods

A method of a test double comes from one of four places: the base, a contract, the body of a mixin, or the user. Its dispatch
says what a call of it ends up running.
-/

namespace TestDouble

/-- A method of a test double and where it comes from. -/
inductive MethodDefinition where
  /-- A method of the base type. -/
  | inherited (method : Method) (declaringType : String)
  /-- A method of a capability. -/
  | contract (method : Method) (declaringType : String)
  /-- A method of a mixin. -/
  | mixinDefault (method : Method) (declaringType : String)
  /-- A method that the user supplies. -/
  | custom (name : String) (isStatic : Bool) (method : CustomMethod)
  deriving DecidableEq, Inhabited

/-- What a call of a method runs. -/
inductive Dispatch where
  /-- The body that the base type has. -/
  | real
  /-- Nothing is there yet. -/
  | unimplemented
  /-- The body that the mixin has. -/
  | mixinBody
  /-- What the user supplied. -/
  | callable
  deriving DecidableEq, Inhabited

namespace MethodDefinition

/-- The method as declared by a type, if a type declares it. -/
def declared? : MethodDefinition → Option Method
  | .inherited m _ => some m
  | .contract m _ => some m
  | .mixinDefault m _ => some m
  | .custom _ _ _ => none

/-- The type that declares the method, if a type does. -/
def declaringType? : MethodDefinition → Option String
  | .inherited _ t => some t
  | .contract _ t => some t
  | .mixinDefault _ t => some t
  | .custom _ _ _ => none

/-- The name. -/
def name : MethodDefinition → String
  | .inherited m _ => m.name
  | .contract m _ => m.name
  | .mixinDefault m _ => m.name
  | .custom name _ _ => name

/-- Whether the method belongs to the type and not to its instances. -/
def isStatic : MethodDefinition → Bool
  | .inherited m _ => m.isStatic
  | .contract m _ => m.isStatic
  | .mixinDefault m _ => m.isStatic
  | .custom _ isStatic _ => isStatic

/-- Whether the user supplies the method. -/
def isCustom : MethodDefinition → Bool
  | .custom _ _ _ => true
  | _ => false

/-- Who may call the method; one that the user supplies is public. -/
def visibility : MethodDefinition → Visibility
  | .inherited m _ => m.visibility
  | .contract m _ => m.visibility
  | .mixinDefault m _ => m.visibility
  | .custom _ _ _ => .isPublic

/-- The parameters, in order. -/
def parameters : MethodDefinition → List Parameter
  | .inherited m _ => m.parameters
  | .contract m _ => m.parameters
  | .mixinDefault m _ => m.parameters
  | .custom _ _ m => m.parameters

/-- The declared type of the result, if there is one. -/
def returnType : MethodDefinition → Option String
  | .inherited m _ => m.returnType
  | .contract m _ => m.returnType
  | .mixinDefault m _ => m.returnType
  | .custom _ _ m => m.returnType

/-- What a call runs: an abstract method and a contract have nothing to run. -/
def dispatch : MethodDefinition → Dispatch
  | .inherited m _ => if m.isAbstract then .unimplemented else .real
  | .contract _ _ => .unimplemented
  | .mixinDefault m _ => if m.isAbstract then .unimplemented else .mixinBody
  | .custom _ _ _ => .callable

end MethodDefinition

end TestDouble
