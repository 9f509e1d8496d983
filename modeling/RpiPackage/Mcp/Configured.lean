import RpiPackage.Lib.Rust
import RpiPackage.Lib.Serde
import RpiPackage.Mcp.Subscriptions

/-!
# Configured servers and their catalogs

The configuration of a server, the targets whose calls have to be admitted by a discovery, and the
catalog of tools that a discovery reads page by page.
-/

namespace Mcp

open Json Json.Value Result

inductive Exposure where
  | codemode
  | deferred
  | direct
  | hidden
  deriving DecidableEq, Repr

structure StdioServer where
  command : String
  args : List String
  env : List (String × String)
  cwd : Option String
  enabled : Bool
  timeout : UInt64
  exposure : Exposure
  deriving DecidableEq, Repr

structure HttpServer where
  url : String
  headers : List (String × String)
  enabled : Bool
  timeout : UInt64
  exposure : Exposure
  deriving DecidableEq, Repr

inductive McpServerConfig where
  | stdio (server : StdioServer)
  | http (server : HttpServer)
  deriving DecidableEq, Repr

def McpServerConfig.isHttp : McpServerConfig → Bool
  | .stdio _ => false
  | .http _ => true

/-- A `ConfiguredStdio` or a `ConfiguredHttp`; its clones share the admission that is kept for it. -/
structure TypedTarget where
  key : Key
  name : String
  config : McpServerConfig
  deriving DecidableEq, Repr

/-- What comes of a request: a result, an error that the server or a decoder reports, a transport that
fails, or no request at all for want of an id. -/
inductive Answer where
  | ok (result : Value)
  | rejected
  | broken
  | unsent
  deriving Repr

def Answer.isOk : Answer → Bool
  | .ok _ => true
  | _ => false

def Answer.isBroken : Answer → Bool
  | .broken => true
  | _ => false

/-! ### Catalogs -/

structure Tool where
  name : String
  description : String
  inputSchema : Value
  deriving Repr

def Tool.fromValue (value : Value) : Except String Tool := do
  let fields ← Serde.structFields ["name", "description", "inputSchema"] false value
  let name ← fields.required .value "name" Serde.string
  let description ← fields.defaulted .value "description" "" Serde.string
  let inputSchema ← fields.defaulted .value "inputSchema" .null fun _ schema => .ok schema
  return ⟨name, description, inputSchema⟩

structure DiscoveryLimits where
  maxTools : Nat
  maxCatalogBytes : Nat
  deriving DecidableEq, Repr

structure Catalog where
  tools : List Tool
  cursors : List String
  bytes : Nat
  pages : Nat
  limits : DiscoveryLimits
  deriving Repr

namespace Catalog

def new (limits : DiscoveryLimits) : Except String Catalog := do
  failIf (limits.maxCatalogBytes < 2) "MCP tool catalog byte limit must allow an empty array"
  return ⟨[], [], 2, 0, limits⟩

/-- The names of the tools that have been accumulated. -/
def names (c : Catalog) : List String := c.tools.map Tool.name

def isValidToolName (name : String) : Bool :=
  Rust.trim name != "" && decide (name.utf8ByteSize ≤ 200)

def validateToolName (name : String) : Except String Unit :=
  failIf (isValidToolName name = false)
    "MCP tool name must be nonblank and at most 200 UTF-8 bytes"

def hasObjectType (schema : Value) : Bool :=
  match schema with
  | .object _ => (schema.get "type").bind asStr == some "object"
  | _ => false

def addTool (c : Catalog) (item : Value) : Except String Catalog := do
  failIf (min c.limits.maxTools 16384 ≤ c.tools.length) "MCP tool catalog exceeded tool count limit"
  -- the array brackets and the comma before the tool count against the limit
  let bytes := c.bytes + (if c.tools = [] then 0 else 1) + item.compactSize
  failIf (c.limits.maxCatalogBytes < bytes) "MCP tool catalog exceeded byte limit"
  let tool ← (Tool.fromValue item).mapError fun _ => "MCP tools/list returned an invalid tool"
  validateToolName tool.name
  failIf (hasObjectType tool.inputSchema = false) "MCP tool inputSchema must have object type"
  failIf (tool.name ∈ c.names) "MCP tools/list returned a duplicate tool name"
  return { c with tools := c.tools ++ [tool], bytes }

def page (c : Catalog) (result : Value) : Except String (Option String × Catalog) := do
  let c := { c with pages := c.pages + 1 }
  failIf (100 < c.pages) "MCP tools/list exceeded 100 pages"
  let items ← okOr ((result.get "tools").bind asArray) "MCP tools/list result has no tools array"
  let c ← items.foldlM addTool c
  match result.get "nextCursor" with
  | none => return (none, c)
  | some (.string next) => do
    failIf (next ∈ c.cursors) "MCP tools/list returned a repeated pagination cursor"
    failIf (c.pages = 100) "MCP tools/list exceeded 100 pages"
    return (some next, { c with cursors := next :: c.cursors })
  | some _ => .error "MCP tools/list nextCursor must be a string"

/-- The pages of a discovery, as they are answered; answers that stop before the last page leave it
cancelled. An error says whether the connection has failed. -/
def discover : Catalog → List Answer → Except Bool Catalog
  | _, [] => .error false
  | c, .ok result :: answers =>
    match c.page result with
    | .error _ => .error false
    | .ok (none, c) => .ok c
    | .ok (some _, c) => c.discover answers
  | _, .broken :: _ => .error true
  | _, _ :: _ => .error false

/-- What has been accumulated: tools with different names, each of them checked, in bounds. -/
structure Valid (c : Catalog) : Prop where
  nodup : c.names.Nodup
  checked : ∀ tool ∈ c.tools, isValidToolName tool.name = true ∧
    hasObjectType tool.inputSchema = true
  count : c.tools.length ≤ min c.limits.maxTools 16384
  bytes : c.bytes ≤ c.limits.maxCatalogBytes

variable {c c' : Catalog}

lemma valid_new {limits : DiscoveryLimits} (h : new limits = .ok c) : c.Valid := by
  obtain ⟨hbytes, h⟩ := check_bind_eq_ok.mp h
  obtain rfl := Except.ok.inj h
  refine ⟨List.nodup_nil, ?_, Nat.zero_le _, Nat.le_of_not_lt (failIf_eq_ok.mp hbytes)⟩
  intro tool htool
  exact absurd htool List.not_mem_nil

lemma Valid.addTool {item : Value} (h : c.Valid) (hadd : c.addTool item = .ok c') : c'.Valid := by
  obtain ⟨hcount, hadd⟩ := check_bind_eq_ok.mp hadd
  dsimp only at hadd
  obtain ⟨hbytes, hadd⟩ := check_bind_eq_ok.mp hadd
  obtain ⟨tool, -, hadd⟩ := bind_eq_ok.mp hadd
  obtain ⟨hname, hadd⟩ := check_bind_eq_ok.mp hadd
  obtain ⟨htype, hadd⟩ := check_bind_eq_ok.mp hadd
  obtain ⟨hfresh, hadd⟩ := check_bind_eq_ok.mp hadd
  obtain rfl := Except.ok.inj hadd
  have hroom := Nat.lt_of_not_le (failIf_eq_ok.mp hcount)
  refine ⟨?_, ?_, ?_, Nat.le_of_not_lt (failIf_eq_ok.mp hbytes)⟩
  · show ((c.tools ++ [tool]).map Tool.name).Nodup
    rw [List.map_append, List.map_singleton, List.nodup_append]
    refine ⟨h.nodup, by simp, ?_⟩
    rintro name hname' _ hmem rfl
    rw [List.mem_singleton.mp hmem] at hname'
    exact failIf_eq_ok.mp hfresh hname'
  · intro t ht
    rcases List.mem_append.mp ht with ht | ht
    · exact h.checked t ht
    · rw [List.mem_singleton.mp ht]
      exact ⟨by simpa using failIf_eq_ok.mp hname, by simpa using failIf_eq_ok.mp htype⟩
  · show (c.tools ++ [tool]).length ≤ min c.limits.maxTools 16384
    rw [List.length_append, List.length_singleton]
    omega

end Catalog

end Mcp
