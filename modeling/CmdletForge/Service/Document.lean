import CmdletForge.Files.Tree
import CmdletForge.Json.Typed
import CmdletForge.Service.Model
import CmdletForge.Yaml.Typed

/-!
# CmdletForge.Service.Document

Services written as documents.

1. `serviceShape` says which fields the document of a service has, and `Service.ofValue` turns
   its value into a service.
2. A document is JSON or YAML.  That of a file is JSON exactly when its extension is `json`.
-/

namespace CmdletForge

/-! ## Shapes -/

section

open Shape

/-- The shape of an enumerated type. -/
def enumShape : Shape :=
  record "EnumDefinition" <|
    .need "type_name" text <|
    .need "members" (list text) .nil

def typeShape : Shape :=
  record "TypeDefinition" <|
    .need "name" text <|
    .allow "properties" (list text) .nil

def propertyShape : Shape :=
  record "PropertyInfo" <|
    .need "name" text <|
    .need "type_name" text <|
    .allow "required" flag <|
    .allow "default_value" (optional text) <|
    .allow "description" (optional text) .nil

def customizationShape : Shape :=
  record "ParamCustomization" <|
    .allow "new_name" (optional text) <|
    .allow "aliases" (list text) .nil

def paginationShape : Shape :=
  record "PaginationDefinition" <|
    .need "token_property" text <|
    .allow "next_token_property" (optional text) <|
    .allow "limit_property" (optional text) <|
    .need "items_property" text <|
    .allow "page_size_cap" (optional count) .nil

def operationShape : Shape :=
  record "OperationDefinition" <|
    .need "name" text <|
    .need "verb" text <|
    .need "noun" text <|
    .need "request_type" text <|
    .allow "properties" (list propertyShape) <|
    .allow "pagination" (optional paginationShape) <|
    .allow "confirm_parameters" (list text) <|
    .allow "customizations" (table customizationShape) .nil

def serviceShape : Shape :=
  record "ServiceModel" <|
    .need "service_id" text <|
    .need "namespace" text <|
    .need "client_interface" text <|
    .allow "noun_prefix" (optional text) <|
    .allow "sdk_version" text <|
    .allow "enums" (list enumShape) <|
    .allow "types" (list typeShape) <|
    .allow "operations" (list operationShape) .nil

end

/-! ## Values -/

def EnumType.ofValue : enumShape.Value → EnumType
  | (typeName, members, ()) => ⟨typeName, members⟩

def AnswerType.ofValue : typeShape.Value → AnswerType
  | (name, properties, ()) => ⟨name, properties⟩

def Property.ofValue : propertyShape.Value → Property
  | (name, typeName, required, defaultValue, description, ()) =>
    ⟨name, typeName, required, defaultValue, description⟩

def Customization.ofValue : customizationShape.Value → Customization
  | (newName, aliases, ()) => ⟨newName, aliases⟩

def Pagination.ofValue : paginationShape.Value → Pagination
  | (token, nextToken, limit, items, cap, ()) => ⟨token, nextToken, limit, items, cap⟩

def Operation.ofValue : operationShape.Value → Operation
  | (name, verb, noun, requestType, properties, pagination, confirm, customizations, ()) =>
    ⟨name, verb, noun, requestType, properties.map Property.ofValue,
      pagination.map Pagination.ofValue, confirm,
      Text.sortByName (customizations.map fun (name, c) => (name, Customization.ofValue c))⟩

def Service.ofValue : serviceShape.Value → Service
  | (id, scope, clientInterface, nounPrefix, sdkVersion, enums, types, operations, ()) =>
    ⟨id, scope, clientInterface, nounPrefix, sdkVersion, enums.map EnumType.ofValue,
      types.map AnswerType.ofValue, operations.map Operation.ofValue⟩

/-! ## Texts and files -/

namespace Service

/-- Why a service cannot be read. -/
inductive Error where
  | json (text : String) (e : Json.Error)
  | yaml (e : Yaml.Error)
  | unreadable (path : Path) (cause : Files.Cause)

/-- The text of the fault in a document. -/
def Error.inner? : Error → Option String
  | .json text e => some (e.message text)
  | .yaml e => some e.message
  | .unreadable _ _ => none

def Error.message : Error → String
  | .json text e => "JSON error: " ++ e.message text
  | .yaml e => "YAML error: " ++ e.message
  | .unreadable path cause =>
    "Parse error: Failed to read service model " ++ Text.quotedPath path ++ ": " ++ cause.message

def ofJson (text : String) : Except Error Service :=
  ((Json.read serviceShape text).map ofValue).mapError (.json text)

def ofYaml (text : String) : Except Error Service :=
  ((Yaml.read serviceShape text).map ofValue).mapError .yaml

/-- The service that a file describes. -/
def load (t : Files.Tree) (path : Path) : Except Error Service := do
  let text ← (t.read path).mapError (.unreadable path)
  if Path.extension? path = some "json" then ofJson text else ofYaml text

end Service

end CmdletForge
