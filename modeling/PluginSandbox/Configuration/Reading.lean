import PluginSandbox.Configuration.Validation
import PluginSandbox.Json.Review.Hold

/-!
# Reading configurations

A configuration file holds one JSON record in UTF-8.  Every field may be left out and has its default
then; the contract, when it is given, must be given whole.  What has been read is validated before it
is used.
-/

namespace PluginSandbox
namespace Configuration

/-- The contract type that a part of a text stands for. -/
def contractOfParsed? (p : Json.Parsed) : Option ContractType := do
  match ← p.fields? ["package", "type_name"] with
  | [package, name] =>
    let package ← Json.Parsed.required? Json.Parsed.string? package
    let name ← Json.Parsed.required? Json.Parsed.string? name
    return { package, name }
  | _ => none

/-- The configuration that a text stands for. -/
def ofParsed? (p : Json.Parsed) : Option Configuration := do
  let fields ← p.partialFields?
    ["allowlist", "contract", "audit_log", "execution_deadline_ms", "max_call_depth"]
  match fields with
  | [allowlist, contract, auditLog, deadline, depth] =>
    let allowlist ← Json.Parsed.withDefault? defaultAllowlist
      (fun p => (p.members? (Json.Parsed.list? Json.Parsed.string?)).map Allowlist.ofList) allowlist
    let contract ← Json.Parsed.withDefault? defaultContract contractOfParsed? contract
    let auditLog ← Json.Parsed.optional? Json.Parsed.string? auditLog
    let deadlineMillis ← Json.Parsed.optional? Json.Parsed.count? deadline
    let maxCallDepth ← Json.Parsed.withDefault? 256 Json.Parsed.count? depth
    return { allowlist, contract, auditLog, deadlineMillis, maxCallDepth }
  | _ => none

/-- The form of a configuration in a text. -/
def shape : Json.Shape :=
  .record "struct SandboxConfig" true
    [("allowlist", .map (.list .text)),
      ("contract", .record "struct ContractConfig" false [("package", .text), ("type_name", .text)]),
      ("audit_log", .nullable (.str "path string")),
      ("execution_deadline_ms", .nullable (.int "u64" 0 ((1 <<< 64) - 1))),
      ("max_call_depth", .count)]

/-- The valid configuration that a text stands for. -/
def read (text : String) : Except SandboxError Configuration := do
  let bytes := text.toUTF8.toList
  match (Json.parse bytes).bind ofParsed? with
  | none => throw (.config (.unparsable (shape.complaint bytes)))
  | some c =>
    discard c.validate
    return c

/-- The valid configuration of a file, given its bytes or why it has none. -/
def load (file : Except FileError ByteArray) : Except SandboxError Configuration :=
  match FileError.textOfFile file with
  | .error cause => .error (.config (.unreadable cause))
  | .ok text => read text

/-- The file that a configuration is read from when the host names none. -/
def defaultFile : String :=
  "scriptbox.json"

end Configuration
end PluginSandbox
