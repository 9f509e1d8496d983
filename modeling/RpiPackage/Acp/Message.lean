import RpiPackage.Acp.Writer
import RpiPackage.Lib.Decimal
import RpiPackage.Lib.Rust

/-!
# Messages of a connection

The envelope of a message, before any of its parameters is looked at. Ids keep their JSON type: the
number 1 and the string "1" are different requests.
-/

namespace Acp

open Json

/-- An id is a string, or an integer of 64 bits with or without a sign; `negative n` is `-(n + 1)`. -/
inductive RpcId where
  | unsigned (n : UInt64)
  | negative (n : Nat) (h : n < 2 ^ 63)
  | text (s : String)
  deriving DecidableEq

namespace RpcId

/-- The valid ids among the values. -/
def ofValue : Value → Option RpcId
  | .string s => some (.text s)
  | .number (.posInt n) => some (.unsigned n)
  | .number (.negInt n) =>
    match h : n.toInt with
    | .ofNat n => some (.unsigned (.ofNat n))
    | .negSucc m => some (.negative m (by have hle := n.le_toInt; omega))
  | _ => none

def asU64 : RpcId → Option UInt64
  | .unsigned n => some n
  | .negative _ _ | .text _ => none

/-- The JSON text of an id. -/
def requestKey : RpcId → String
  | .unsigned n => n.toNat.repr
  | .negative n _ => "-" ++ (n + 1).repr
  | .text s => Value.quote s

lemma toList_negative (n : Nat) : ("-" ++ n.repr).toList = '-' :: Nat.toDigits 10 n := by
  rw [String.toList_append, Nat.toList_repr]
  rfl

/-- Different ids have different keys. -/
lemma requestKey_injective {id id' : RpcId} (h : id.requestKey = id'.requestKey) : id = id' := by
  cases id with
  | unsigned n =>
    cases id' with
    | unsigned m => rw [UInt64.toNat_inj.mp (Decimal.repr_injective h)]
    | negative m => exact absurd h (Decimal.repr_ne_of_head (by decide) (toList_negative _))
    | text s => exact absurd h (Decimal.repr_ne_of_head (by decide) (Value.toList_quote s))
  | negative n hn =>
    cases id' with
    | unsigned m => exact absurd h.symm (Decimal.repr_ne_of_head (by decide) (toList_negative _))
    | negative m hm =>
      have hlist := congrArg String.toList h
      unfold requestKey at hlist
      rw [toList_negative, toList_negative] at hlist
      have hdigits := (List.cons.inj hlist).2
      rw [← Nat.toList_repr, ← Nat.toList_repr] at hdigits
      obtain rfl := Nat.succ.inj (Decimal.repr_injective (String.toList_inj.mp hdigits))
      rfl
    | text s =>
      have hlist := congrArg String.toList h
      unfold requestKey at hlist
      rw [toList_negative, Value.toList_quote] at hlist
      exact absurd (List.cons.inj hlist).1 (by decide)
  | text s =>
    cases id' with
    | unsigned m => exact absurd h.symm (Decimal.repr_ne_of_head (by decide) (Value.toList_quote s))
    | negative m hm =>
      have hlist := congrArg String.toList h
      unfold requestKey at hlist
      rw [toList_negative, Value.toList_quote] at hlist
      exact absurd (List.cons.inj hlist).1 (by decide)
    | text t => rw [Value.quote_injective h]

end RpcId

/-! ### The envelope -/

inductive RpcMessage where
  | request (id : Option RpcId) (method : String) (params : Value)
  | response (id : RpcId) (result : Response)

def rpcError (id : Value) (code : Int64) (message : String) : Value :=
  .object [("jsonrpc", .string "2.0"), ("id", id),
    ("error", .object [("code", .number (.negInt code)), ("message", .string message)])]

/-- The refusal of an object; one without an id is a notification, and is dropped. -/
def refusal (message : Value) : Value :=
  match message.get "id" with
  | none => .null
  | some id => rpcError (if (RpcId.ofValue id).isSome then id else .null) (-32600) "invalid request"

def maxErrorBytes : Nat := 4096

/-- What a client has answered to a request of the agent. -/
def parseResponse (message : Value) : Response :=
  match message.get "result", message.get "error" with
  | some result, none => .ok result
  | none, some error =>
    match (error.index "code").asI64, (error.index "message").asStr with
    | some code, some text =>
      if text.utf8ByteSize ≤ maxErrorBytes then .error (.rpc code text) else .error .invalidResponse
    | _, _ => .error .invalidResponse
  | _, _ => .error .invalidResponse

def parseRpcMessage (message : Value) : Except Value RpcMessage :=
  match message with
  | .object _ =>
    if (message.get "jsonrpc").bind Value.asStr ≠ some "2.0" then .error (refusal message)
    else
      match message.get "method" with
      | some method =>
        match method.asStr with
        | none => .error (refusal message)
        | some method =>
          if (message.get "result").isSome || (message.get "error").isSome then
            .error (refusal message)
          else
            let params := (message.get "params").getD .null
            match message.get "id" with
            | none => .ok (.request none method params)
            | some id =>
              match RpcId.ofValue id with
              | some id => .ok (.request (some id) method params)
              | none => .error (rpcError .null (-32600) "invalid request")
      | none =>
        match (message.get "id").bind RpcId.ofValue with
        | none => .error .null
        | some id => .ok (.response id (parseResponse message))
  | _ => .error (rpcError .null (-32600) "invalid request")

/-! ### Parameters -/

def requestParams (params : Value) (method : String) : Except String Unit :=
  match params with
  | .object _ => .ok ()
  | _ => .error (method ++ " params must be an object")

def requiredString (params : Value) (name : String) : Except String String :=
  match ((params.get name).bind Value.asStr).filter fun value => Rust.trim value != "" with
  | some value => .ok value
  | none => .error (name ++ " must be a non-empty string")

end Acp
