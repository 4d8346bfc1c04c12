import TiyGate.Json.Convert

/-!
# Schemas for Gemini

Gemini takes schemas in a subset of OpenAPI.  A type that may be null becomes
nullable, a constant becomes an enumeration of one value, and other keywords are
dropped.
-/

namespace TiyGate.Protocols.Gemini

open Json (Obj mkObj)

/-- A schema of the type null. -/
def isNullSchema (schema : Json) : Bool :=
  (schema.get? "type").bind Json.asStr = some "null"

/-- An object schema that says nothing about its properties. -/
def isEmptyObjectSchema (fields : List (String × Json)) : Bool :=
  (Assoc.lookup "type" fields).bind Json.asStr = some "object" &&
    ((Assoc.lookup "properties" fields).bind Json.asObject).all (·.isEmpty) &&
    (Assoc.lookup "additionalProperties" fields).isNone

/-- The type of a schema: a name, or a list of names in which null is a flag. -/
def convertSchemaType (type : Json) (result : Obj) : Obj :=
  match type with
  | .str name => result.set "type" (.str name)
  | .arr names =>
      let hasNull := names.any (·.asStr = some "null")
      let nullable (result : Obj) : Obj :=
        if hasNull then result.set "nullable" (.bool true) else result
      match names.filter (·.asStr ≠ some "null") with
      | [] => result.set "type" (.str "null")
      | [name] => nullable (result.set "type" name)
      | names =>
          nullable (result.set "anyOf" (.arr (names.map fun name => mkObj [("type", name)])))
  | _ => result

/-- Alternatives, each with its converted form.  Null is a flag; a single other
alternative is merged into the schema. -/
def convertAnyOf (alternatives : List (Json × Json)) (result : Obj) : Obj :=
  if alternatives.any (isNullSchema ·.1) then
    let result :=
      match (alternatives.filter (!isNullSchema ·.1)).map Prod.snd with
      | [converted] =>
          (converted.asObject.getD []).foldl
            (fun (result : Obj) (field : String × Json) => result.set field.1 field.2) result
      | converted => result.set "anyOf" (.arr converted)
    result.set "nullable" (.bool true)
  else result.set "anyOf" (.arr (alternatives.map Prod.snd))

/-- A schema from its fields, and from what becomes of the schemas within them. -/
def assembleSchema (fields converted : List (String × Json)) : Json :=
  let own (keyword : String) : Option Json := Assoc.lookup keyword fields
  -- A list of schemas counts only if the field is an array.
  let list (keyword : String) : Option Json :=
    ((own keyword).bind Json.asArray).bind fun _ => Assoc.lookup keyword converted
  if isEmptyObjectSchema fields then
    ((Obj.of [("type", .str "object")]).setOpt "description" (own "description")).json
  else
    let result := ((((Obj.of []).setOpt "description" (own "description")).setOpt "required"
      (own "required")).setOpt "format" (own "format")).setOpt "minLength" (own "minLength")
    let result := result.setOpt "enum" ((own "const").map fun value => .arr [value])
    let result := (own "type").elim result fun type => convertSchemaType type result
    let result := result.setOpt "enum" (own "enum")
    let result := result.setOpt "properties" (((own "properties").bind Json.asObject).bind fun _ =>
      Assoc.lookup "properties" converted)
    let result := result.setOpt "items" (Assoc.lookup "items" converted)
    let result := result.setOpt "allOf" (list "allOf")
    let result :=
      match (own "anyOf").bind Json.asArray, (list "anyOf").bind Json.asArray with
      | some alternatives, some converted => convertAnyOf (alternatives.zip converted) result
      | _, _ => result
    (result.setOpt "oneOf" (list "oneOf")).json

mutual

def convertJsonSchemaToOpenapi : Json → Json
  | .bool true => mkObj []
  | .bool false => mkObj [("not", mkObj [])]
  | .obj fields => assembleSchema fields (convertKeywords fields)
  | other => other

/-- The fields of a schema with the schemas within them converted. -/
def convertKeywords : List (String × Json) → List (String × Json)
  | [] => []
  | (keyword, value) :: fields =>
      (keyword,
        match value with
        | .arr schemas => .arr (convertSchemas schemas)
        | .obj entries =>
            if keyword = "properties" then .obj (convertProperties entries)
            else convertJsonSchemaToOpenapi (.obj entries)
        | other => convertJsonSchemaToOpenapi other) :: convertKeywords fields

def convertSchemas : List Json → List Json
  | [] => []
  | schema :: schemas => convertJsonSchemaToOpenapi schema :: convertSchemas schemas

def convertProperties : List (String × Json) → List (String × Json)
  | [] => []
  | (name, schema) :: entries =>
      (name, convertJsonSchemaToOpenapi schema) :: convertProperties entries

end

end TiyGate.Protocols.Gemini
