import AikitRuntime.Library.Counters
import AikitRuntime.Library.Decimals
import AikitRuntime.Library.NumberMaps
import AikitRuntime.Durability.Governance
import AikitRuntime.Mcp.Ingress

/-!
# A2A messages and artifacts

What clients and agents say to each other: messages of parts, and the artifacts that a completed task
carries. Part forms that `A2aPart` cannot express are kept beside the parts, under a reserved key of the
message's metadata, and a message is valid only if what is kept there fits its parts. Every size is the
length of the value's JSON.
-/

namespace AikitRuntime.A2a

open Library Durability Mcp

/-! ### JSON -/

/-- `serde_json::to_vec(value)?.len()`. The length does not depend on the order of the fields. -/
def serializedBytes (v : Value) : Nat := (String.ofList (canonicalJson v)).utf8ByteSize

/-- A field that is left out when there is nothing in it. -/
def optionalField (key : String) (v : Option Value) : List (String × Value) :=
  (v.map fun v => (key, v)).toList

/-- An `Option` of text that is always written. -/
def textOrNull (text : Option String) : Value := (text.map Value.string).getD .null

/-- A number that is not negative. -/
def natural (n : Nat) : Value := .number (.posInt n)

/-- `BTreeMap<String, Value>`. -/
def mapJson (m : BTreeMap Value) : Value := .ofFields m.toList

/-! ### Limits -/

/-- `A2A_MAX_MESSAGE_BYTES`. -/
def maxMessageBytes : Nat := 256 * 1024

/-- `A2A_MAX_ARTIFACTS_PER_TASK`. -/
def maxArtifactsPerTask : Nat := 64

/-- `A2A_MAX_ARTIFACT_BYTES_PER_TASK`. -/
def maxArtifactBytesPerTask : Nat := 1024 * 1024

/-! ### Messages -/

/-- `A2aRole`. -/
inductive A2aRole where
  | user | agent
  deriving DecidableEq

def A2aRole.json : A2aRole → Value
  | .user => .string "ROLE_USER"
  | .agent => .string "ROLE_AGENT"

/-- `A2aPart`. -/
inductive A2aPart where
  | text (text : String)
  | data (data : Value)
  | file (uri mediaType : String)
  deriving DecidableEq

def A2aPart.json : A2aPart → Value
  | .text content => .ofFields [("kind", .string "text"), ("text", .string content)]
  | .data content => .ofFields [("kind", .string "data"), ("data", content)]
  | .file uri mediaType =>
    .ofFields [("kind", .string "file"), ("uri", .string uri), ("media_type", .string mediaType)]

/-- `A2aMessage`. -/
structure A2aMessage where
  messageId : String
  contextId : Option String
  taskId : Option String
  role : A2aRole
  parts : List A2aPart
  metadata : BTreeMap Value
  deriving DecidableEq

def A2aMessage.json (message : A2aMessage) : Value :=
  .ofFields ([("message_id", .string message.messageId)] ++
    optionalField "context_id" (message.contextId.map .string) ++
    optionalField "task_id" (message.taskId.map .string) ++
    [("role", message.role.json), ("parts", .array (message.parts.map A2aPart.json)),
      ("metadata", mapJson message.metadata)])

/-! ### Part wire extensions -/

/-- `A2A_PART_WIRE_EXTENSIONS_METADATA_KEY`. -/
def partWireExtensionsMetadataKey : String := "https://aikit.dev/a2a/part-wire-extensions/v1"

/-- `A2aPartWireExtension`. -/
structure A2aPartWireExtension where
  mediaType : Option String
  filename : Option String
  raw : Option (List Nat)
  deriving DecidableEq

/-- `Vec<u8>`. -/
def decodeBytes : Decoder (List Nat)
  | .array items => items.mapM (Decoder.unsigned 256)
  | _ => none

/-- A field of type `Option` with `#[serde(default)]`. -/
def absent {α : Type} (name : String) (d : Decoder α) : FieldReader (Option α) :=
  Decoder.fieldOr name (Decoder.nullable d) (some none) (some none)

def A2aPartWireExtension.decode : Decoder A2aPartWireExtension :=
  Decoder.record (some ["media_type", "filename", "raw"]) do
    let mediaType ← absent "media_type" Decoder.text
    let filename ← absent "filename" Decoder.text
    let raw ← absent "raw" decodeBytes
    pure ⟨mediaType, filename, raw⟩

/-- The loop of `decode_part_wire_extensions` over what was encoded. -/
def decodeExtensionEntries : List (String × A2aPartWireExtension) →
    NumberMap A2aPartWireExtension → ProtocolResult (NumberMap A2aPartWireExtension)
  | [], decoded => .ok decoded
  | (encodedIndex, extension) :: rest, decoded => do
    let index ← okOr (Decimals.parseUsize encodedIndex.toList) (.invalid "A2A part wire extension index is invalid")
    refuseIf (toString index ≠ encodedIndex ∨ decoded[index]?.isSome)
      (.invalid "A2A part wire extension index is not canonical")
    decodeExtensionEntries rest (decoded.insert index extension)

/-- `decode_part_wire_extensions`. -/
def decodePartWireExtensions (metadata : BTreeMap Value) :
    ProtocolResult (NumberMap A2aPartWireExtension) :=
  match metadata[partWireExtensionsMetadataKey]? with
  | none => .ok ∅
  | some value => do
    let invalid := ProtocolError.invalid "A2A part wire extensions are invalid"
    let fields ← okOr value.asObject invalid
    let encoded ← okOr (fields.mapM fun field =>
      (A2aPartWireExtension.decode field.2).map (field.1, ·)) invalid
    decodeExtensionEntries encoded ∅

/-- The text has a line break in it (`text.contains(['\r', '\n'])`). -/
def hasLineBreak (text : String) : Bool := text.toList.any fun c => c = '\r' || c = '\n'

/-- A media type or file name that is refused: empty, too long, or of several lines. -/
def badAttribute (limit : Nat) (text : String) : Bool :=
  text = "" || limit < text.utf8ByteSize || hasLineBreak text

/-- The last check of `validate_part_wire_extensions`: the extension fits its part. -/
def fitsPart (extension : A2aPartWireExtension) : A2aPart → ProtocolResult Unit
  | .data content =>
    match extension.raw with
    | some _ =>
      if content.isNull then
        refuseIf (extension.mediaType = none)
          (.invalid "A2A raw part wire extension requires a media type")
      else .error (.invalid "A2A part wire extension does not match its canonical part")
    | none =>
      refuseIf extension.filename.isSome
        (.invalid "A2A text and data parts cannot carry a filename")
  | .text _ =>
    match extension.raw with
    | some _ => .error (.invalid "A2A part wire extension does not match its canonical part")
    | none =>
      refuseIf extension.filename.isSome
        (.invalid "A2A text and data parts cannot carry a filename")
  | .file _ _ =>
    refuseIf extension.raw.isSome
      (.invalid "A2A part wire extension does not match its canonical part")

/-- One round of the loop of `validate_part_wire_extensions`. -/
def validateExtension (parts : List A2aPart) (entry : Nat × A2aPartWireExtension) :
    ProtocolResult Unit := do
  let part ← okOr parts[entry.1]? (.invalid "A2A part wire extension index is out of range")
  refuseIf (entry.2.mediaType.any (badAttribute 255) || entry.2.filename.any (badAttribute 1024))
    (.invalid "A2A part wire extension metadata is invalid")
  fitsPart entry.2 part

/-- `validate_part_wire_extensions`. -/
def validatePartWireExtensions (parts : List A2aPart) (metadata : BTreeMap Value) :
    ProtocolResult Unit := do
  let extensions ← decodePartWireExtensions metadata
  firstRefusal (validateExtension parts) extensions.toList

/-- `A2aMessage::validate`. -/
def A2aMessage.validate (message : A2aMessage) : ProtocolResult Unit := do
  validateIdentifier "A2A message_id" message.messageId
  firstRefusal (validateIdentifier "A2A context_id") message.contextId.toList
  firstRefusal (validateIdentifier "A2A task_id") message.taskId.toList
  refuseIf message.parts.isEmpty (.invalid "A2A message must contain at least one part")
  validatePartWireExtensions message.parts message.metadata
  refuseIf (maxMessageBytes < serializedBytes message.json)
    (.invalid s!"A2A message must not exceed {maxMessageBytes} serialized bytes")

/-! ### Artifacts -/

/-- `A2aContentPart`. -/
inductive A2aContentPart where
  | text (text : String) (mediaType : Option String)
  | data (data : Value) (mediaType : Option String)
  | file (uri mediaType : String) (filename : Option String)
  | raw (raw : List Nat) (mediaType : String) (filename : Option String)
  deriving DecidableEq

def A2aContentPart.json : A2aContentPart → Value
  | .text content mediaType =>
    .ofFields ([("kind", .string "text"), ("text", .string content)] ++
      optionalField "media_type" (mediaType.map .string))
  | .data content mediaType =>
    .ofFields ([("kind", .string "data"), ("data", content)] ++
      optionalField "media_type" (mediaType.map .string))
  | .file uri mediaType filename =>
    .ofFields ([("kind", .string "file"), ("uri", .string uri), ("media_type", .string mediaType)] ++
      optionalField "filename" (filename.map .string))
  | .raw bytes mediaType filename =>
    .ofFields ([("kind", .string "raw"), ("raw", .array (bytes.map natural)),
      ("media_type", .string mediaType)] ++ optionalField "filename" (filename.map .string))

/-- What `A2aArtifact::validate` checks of one part. -/
def A2aContentPart.validate : A2aContentPart → ProtocolResult Unit
  | .text _ mediaType | .data _ mediaType =>
    refuseIf (mediaType.any (badAttribute 255))
      (.invalid "A2A artifact text or data media type is invalid")
  | .file uri mediaType filename =>
    refuseIf (badAttribute (8 * 1024) uri || badAttribute 255 mediaType ||
        filename.any (badAttribute 1024))
      (.invalid "A2A artifact file URI or media type is invalid")
  | .raw _ mediaType filename =>
    refuseIf (badAttribute 255 mediaType || filename.any (badAttribute 1024))
      (.invalid "A2A artifact raw file metadata is invalid")

/-- `A2aArtifact`. -/
structure A2aArtifact where
  artifactId : String
  name : Option String
  description : Option String
  parts : List A2aContentPart
  metadata : BTreeMap Value
  deriving DecidableEq

def A2aArtifact.json (artifact : A2aArtifact) : Value :=
  .ofFields ([("artifact_id", .string artifact.artifactId)] ++
    optionalField "name" (artifact.name.map .string) ++
    optionalField "description" (artifact.description.map .string) ++
    [("parts", .array (artifact.parts.map A2aContentPart.json))] ++
    optionalField "metadata" (if artifact.metadata.isEmpty then none else some (mapJson artifact.metadata)))

/-- `A2aArtifact::validate`. -/
def A2aArtifact.validate (artifact : A2aArtifact) : ProtocolResult Unit := do
  validateIdentifier "A2A artifact_id" artifact.artifactId
  refuseIf artifact.parts.isEmpty (.invalid "A2A artifact must contain at least one part")
  refuseIf (artifact.name.any (fun name => name = "" || 1024 < name.utf8ByteSize) ||
      artifact.description.any (fun description => 16 * 1024 < description.utf8ByteSize))
    (.invalid "A2A artifact name or description is invalid")
  firstRefusal A2aContentPart.validate artifact.parts

/-- The loop of `validate_task_artifacts`. -/
def validateEachArtifact : List A2aArtifact → BTreeSet → ProtocolResult Unit
  | [], _ => .ok ()
  | artifact :: rest, artifactIds => do
    artifact.validate
    refuseIf (artifactIds.contains artifact.artifactId) (.invalid "A2A task artifact ids must be unique")
    validateEachArtifact rest (artifactIds.insert artifact.artifactId ())

end AikitRuntime.A2a
