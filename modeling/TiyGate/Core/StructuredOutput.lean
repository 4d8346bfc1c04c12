import TiyGate.Core.Conversation

/-!
# Schemas of structured output

Before a schema is sent to an upstream it is checked against what the protocol
of the upstream supports.  The check goes through all schemas within a schema
and stops at the first error.
-/

namespace TiyGate.Core

inductive StructuredOutputError
  | schemaMustBeObject (pointer : String)
  | unsupportedKeyword (target : ProtocolSuite) (pointer keyword : String)
  | invalidSchemaContainer (pointer expected : String)
  deriving DecidableEq

def StructuredOutputError.display : StructuredOutputError → String
  | schemaMustBeObject pointer => "JSON Schema at " ++ pointer ++ " must be an object"
  | unsupportedKeyword target pointer keyword =>
      "JSON Schema keyword \"" ++ keyword ++ "\" at " ++ pointer ++ " is not supported by " ++
        target.label
  | invalidSchemaContainer pointer expected =>
      "JSON Schema value at " ++ pointer ++ " must be " ++ expected

def isKnownUnsupportedKeyword (target : ProtocolSuite) (keyword : String) : Bool :=
  target = .anthropicMessages &&
    ["minimum", "maximum", "exclusiveMinimum", "exclusiveMaximum", "multipleOf", "minLength",
      "maxLength"].contains keyword

/-- A token of a pointer, with its special characters escaped. -/
def escapeToken (token : String) : String :=
  String.ofList ((token.toList.flatMap fun char =>
    if char = '~' then ['~', '0'] else [char]).flatMap fun char =>
    if char = '/' then ['~', '1'] else [char])

def pointerFor (parent token : String) : String :=
  parent ++ "/" ++ escapeToken token

def displayPointer (pointer : String) : String :=
  if pointer = "" then "/" else pointer

/-- How a keyword contains schemas: by name, as its value, or in an array. -/
inductive SchemaContainer
  | map
  | value
  | array
  deriving DecidableEq

/-- The keywords that contain schemas, in the order of the walk. -/
def schemaKeywords : List (String × SchemaContainer) :=
  [("properties", .map), ("$defs", .map), ("definitions", .map), ("dependentSchemas", .map),
    ("items", .value), ("additionalProperties", .value), ("not", .value), ("if", .value),
    ("then", .value), ("else", .value), ("contains", .value), ("propertyNames", .value),
    ("anyOf", .array), ("allOf", .array), ("oneOf", .array), ("prefixItems", .array)]

/-- The first keyword of a schema that the target does not support. -/
def checkKeywords (target : ProtocolSuite) (pointer : String) (fields : List (String × Json)) :
    Except StructuredOutputError Unit :=
  match fields.find? fun field => isKnownUnsupportedKeyword target field.1 with
  | some field => .error (.unsupportedKeyword target (pointerFor pointer field.1) field.1)
  | none => .ok ()

mutual

def walkSchema (target : ProtocolSuite) : Json → String → Except StructuredOutputError Unit
  | .obj fields, pointer => do
      checkKeywords target pointer fields
      let walked := walkFields target pointer fields
      schemaKeywords.forM fun entry => (Assoc.lookup entry.1 walked).getD (.ok ())
  | _, pointer => .error (.schemaMustBeObject (displayPointer pointer))

/-- What comes out of the schemas that each of the keywords contains. -/
def walkFields (target : ProtocolSuite) (pointer : String) :
    List (String × Json) → List (String × Except StructuredOutputError Unit)
  | [] => []
  | (keyword, value) :: fields =>
      (keyword,
        match Assoc.lookup keyword schemaKeywords with
        | none => .ok ()
        | some .map =>
            match value with
            | .obj entries => walkSchemaMap target (pointerFor pointer keyword) entries
            | _ => .error (.invalidSchemaContainer (pointerFor pointer keyword)
                "an object containing schemas")
        | some .value =>
            if value.asBool.isSome && keyword = "additionalProperties" then .ok ()
            else walkSchema target value (pointerFor pointer keyword)
        | some .array =>
            match value with
            | .arr items => walkSchemaArray target (pointerFor pointer keyword) 0 items
            | _ => .error (.invalidSchemaContainer (pointerFor pointer keyword)
                "an array of schemas")) :: walkFields target pointer fields

def walkSchemaMap (target : ProtocolSuite) (pointer : String) :
    List (String × Json) → Except StructuredOutputError Unit
  | [] => .ok ()
  | (name, schema) :: entries => do
      walkSchema target schema (pointerFor pointer name)
      walkSchemaMap target pointer entries

def walkSchemaArray (target : ProtocolSuite) (pointer : String) (index : Nat) :
    List Json → Except StructuredOutputError Unit
  | [] => .ok ()
  | schema :: schemas => do
      walkSchema target schema (pointerFor pointer (toString index))
      walkSchemaArray target pointer (index + 1) schemas

end

def validateSchemaForTarget (schema : Json) (target : ProtocolEndpoint) :
    Except StructuredOutputError Unit :=
  walkSchema target.suite schema ""

def validateResponseFormatForTarget (format : Option ResponseFormat) (target : ProtocolEndpoint) :
    Except StructuredOutputError Unit :=
  match format with
  | some (.jsonSchema _ schema _) => validateSchemaForTarget schema target
  | _ => .ok ()

end TiyGate.Core
