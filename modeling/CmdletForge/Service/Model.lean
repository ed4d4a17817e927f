/-!
# CmdletForge.Service.Model

What is known of a web service: its operations, the properties of their requests, its enumerated
types, and the types that it answers with.

1. A noun prefix that is not given is the identifier of the service; a next-token member that is
   not given is the token member.
2. An operation changes something exactly when it has parameters to confirm.
3. Looking for a type by name finds the first one of that name.
-/

namespace CmdletForge

/-- A type with a fixed set of member names. -/
structure EnumType where
  typeName : String
  members : List String
  deriving DecidableEq, Repr

/-- A type that is answered, and the names of its properties. -/
structure AnswerType where
  name : String
  properties : List String
  deriving DecidableEq, Repr

/-- A property of a request. -/
structure Property where
  name : String
  typeName : String
  required : Bool
  defaultValue : Option String
  description : Option String
  deriving DecidableEq, Repr

/-- What is changed by hand about one parameter. -/
structure Customization where
  /-- The name to use in place of the property's. -/
  newName : Option String
  aliases : List String
  deriving DecidableEq, Repr

/-- How an operation hands out its answer in pages. -/
structure Pagination where
  /-- The member of the request for the token. -/
  token : String
  /-- The member of the answer with the next token. -/
  nextToken : Option String
  /-- The member of the request for the size of a page. -/
  limit : Option String
  /-- The member of the answer with the items. -/
  items : String
  /-- The largest page that the service accepts. -/
  pageSizeCap : Option Nat
  deriving DecidableEq, Repr

/-- An operation of a service. -/
structure Operation where
  name : String
  verb : String
  /-- The noun, without the prefix of the service. -/
  noun : String
  requestType : String
  properties : List Property
  pagination : Option Pagination
  /-- The parameters that a confirmation shows. -/
  confirmParameters : List String
  /-- By the name of a property, in the order of the names. -/
  customizations : List (String × Customization)
  deriving DecidableEq, Repr

/-- A service. -/
structure Service where
  id : String
  /-- The namespace of its types. -/
  scope : String
  clientInterface : String
  nounPrefix? : Option String
  sdkVersion : String
  enums : List EnumType
  types : List AnswerType
  operations : List Operation
  deriving DecidableEq, Repr

namespace Property

/-- Whether a property holds a text. -/
def isText (p : Property) : Bool := ["System.String", "string", "String"].contains p.typeName

/-- Whether a value must be given. -/
def isMandatory (p : Property) : Bool := p.required && p.defaultValue.isNone

end Property

def Pagination.nextTokenName (p : Pagination) : String := p.nextToken.getD p.token

namespace Operation

/-- Whether an operation changes something. -/
def isMutating (o : Operation) : Bool := !o.confirmParameters.isEmpty

/-- What is changed by hand about the parameter of a property. -/
def customization? (o : Operation) (property : String) : Option Customization :=
  o.customizations.lookup property

end Operation

namespace Service

def nounPrefix (s : Service) : String := s.nounPrefix?.getD s.id

/-- The enumerated type of a name. -/
def enum? (s : Service) (typeName : String) : Option EnumType :=
  s.enums.find? (·.typeName = typeName)

def type? (s : Service) (name : String) : Option AnswerType := s.types.find? (·.name = name)

/-- The properties of the answered type of a name. -/
def propertiesOf? (s : Service) (name : String) : Option (List String) :=
  (s.type? name).map (·.properties)

end Service

end CmdletForge
