import RowQuery.Config.Basic
import RowQuery.Config.Path
import RowQuery.Toml.Document

/-!
# Reading a configuration

A configuration is a TOML document with the tables `split` and `join`.  Every key is optional, and
a key that is not known is refused.

* `Config.ofToml?` — the configuration that a text describes.
* `Config.ofFile` — the configuration in a file, from what reading the file gave.
* `ConfigError` — why there is none.
-/

namespace RowQuery

namespace Toml.Node

/-- A truth value. -/
def boolean? : Node → Option Bool
  | .boolean b => some b
  | _ => none

/-- A text. -/
def text? : Node → Option String
  | .string s => some s
  | _ => none

/-- Whether a node holds nothing. -/
def isEmpty : Node → Bool
  | .table _ entries => entries.isEmpty
  | .array items => items.isEmpty
  | .tables elements => elements.isEmpty
  | _ => false

/-- The name of a choice without data: a text, or a table whose one key holds nothing. -/
def choice? : Node → Option String
  | .string s => some s
  | .table _ [(name, node)] => if node.isEmpty then some name else none
  | _ => none

/-- **The fields of a structure**, one for each of `names`.  A table has no other keys; an array
lists the fields in their order and may end early. -/
def fields? (names : List String) : Node → Option (List (Option Node))
  | .table _ entries =>
      if entries.all fun (key, _) => key ∈ names then
        some (names.map fun name => entries.lookup name)
      else none
  | .array items => some (names.zipIdx.map fun (_, i) => items[i]?)
  | .tables elements => some (names.zipIdx.map fun (_, i) => (elements[i]?).map (.table .header))
  | _ => none

/-- A field with a default for the case that it is missing. -/
def orDefault {α : Type} (default : α) (read : Node → Option α) : Option Node → Option α
  | some node => read node
  | none => some default

end Toml.Node

open Toml (Node)

/-- The match mode of a name. -/
def MatchMode.ofNode? (node : Node) : Option MatchMode := do
  match ← node.choice? with
  | "exact" => return .exact
  | "assignable" => return .assignable
  | _ => none

/-- The strategy of a name. -/
def FullJoinStrategy.ofNode? (node : Node) : Option FullJoinStrategy := do
  match ← node.choice? with
  | "anti_join" => return .antiJoin
  | "union" => return .union
  | _ => none

/-- The options of splitting. -/
def SplitOptions.ofNode? (node : Node) : Option SplitOptions := do
  let defaults : SplitOptions := {}
  let [mode, cache, name] ←
    node.fields? ["match_mode", "cache_member_plans", "carrier_param_name"] | none
  return {
    matchMode := ← Node.orDefault defaults.matchMode MatchMode.ofNode? mode
    cacheMemberPlans := ← Node.orDefault defaults.cacheMemberPlans Node.boolean? cache
    carrierParamName := ← Node.orDefault defaults.carrierParamName Node.text? name }

/-- The options of joins. -/
def JoinOptions.ofNode? (node : Node) : Option JoinOptions := do
  let defaults : JoinOptions := {}
  let [strategy, nulls] ← node.fields? ["full_join", "null_keys_match"] | none
  return {
    fullJoin := ← Node.orDefault defaults.fullJoin FullJoinStrategy.ofNode? strategy
    nullKeysMatch := ← Node.orDefault defaults.nullKeysMatch Node.boolean? nulls }

/-- **Why a configuration cannot be had.** -/
inductive ConfigError where
  /-- The path leads to no file. -/
  | noFile (path : String) (fault : PathFault)
  /-- The file is no text. -/
  | notText (path : String)
  /-- The text describes no configuration. -/
  | invalid
  deriving DecidableEq, Repr

/-- What went wrong when the file was read. -/
def ConfigError.cause : ConfigError → String
  | .noFile _ fault => fault.message
  | .notText _ => "stream did not contain valid UTF-8"
  | .invalid => "invalid config"

/-- The wording of a failure. -/
def ConfigError.message : ConfigError → String
  | e@(.noFile path _) => s!"failed to read {path}: {e.cause}"
  | e@(.notText path) => s!"failed to read {path}: {e.cause}"
  | e@.invalid => e.cause

namespace Config

/-- The configuration of a table. -/
def ofNode? (node : Node) : Option Config := do
  let [split, join] ← node.fields? ["split", "join"] | none
  return {
    split := ← Node.orDefault {} SplitOptions.ofNode? split
    join := ← Node.orDefault {} JoinOptions.ofNode? join }

/-- **The configuration that a text describes.** -/
def ofToml? (text : String) : Option Config := do
  ofNode? (.table .header (← Toml.Document.ofText? text))

/-- **The configuration in a file.**  `contents` is what the file holds, or nothing if there is no
such file. -/
def ofFile (path : String) (contents : Option ByteArray) : Except ConfigError Config :=
  match contents with
  | none => throw (.noFile path (PathFault.ofPath path))
  | some bytes =>
      match String.fromUTF8? bytes with
      | none => throw (.notText path)
      | some text =>
          match ofToml? text with
          | some config => return config
          | none => throw .invalid

end Config

end RowQuery
