import RpiPackage.Lib.Json

/-!
# Token counts

The counts and costs that a message carries, and how the metadata of a chunk changes them. The
arithmetic of doubles is a parameter.
-/

namespace Antigravity

open Json

/-- The doubles, with what the counts need of them. -/
class Doubles (F : Type) where
  ofNumber : Number → F
  ofInt : Int → F
  add : F → F → F
  sub : F → F → F
  mul : F → F → F
  div : F → F → F
  max : F → F → F
  lt : F → F → Bool
  -- the integer that a double is, if it is one of at most 53 bits
  integer : F → Option Int
  -- the shortest text of a finite double
  text : F → Option String
  -- the text that a script would print
  number : F → String

/-- The truth of a value in a script. -/
def truthy : Value → Bool
  | .null => false
  | .bool b => b
  | .number (.posInt n) => n != 0
  | .number (.negInt n) => n != 0
  | .number (.float text) => text != "0.0" && text != "-0.0"
  | .string s => s != ""
  | .array _ | .object _ => true

variable {F : Type} [Doubles F]

def asF64 (F : Type) [Doubles F] : Value → Option F
  | .number n => some (Doubles.ofNumber n)
  | _ => none

/-- A double without a value is written as `null`. -/
def finiteNumber (x : F) : Value :=
  match Doubles.integer x with
  | some (.ofNat n) => .number (.posInt (UInt64.ofNat n))
  | some (.negSucc n) => .number (.negInt (Int64.ofInt (.negSucc n)))
  | none =>
    match Doubles.text x with
    | some text => .number (.float text)
    | none => .null

structure Cost where
  input : Value
  output : Value
  cacheRead : Value
  cacheWrite : Value
  total : Value
  deriving Repr

structure Usage where
  input : Value
  output : Value
  cacheRead : Value
  cacheWrite : Value
  totalTokens : Value
  cost : Cost
  deriving Repr

def zero : Value := .number (.posInt 0)

def Usage.new : Usage := ⟨zero, zero, zero, zero, zero, ⟨zero, zero, zero, zero, zero⟩⟩

/-- The rates of the highest tier that is exceeded. -/
def ratesFor (cost : Value) (inputTokens : F) : Value :=
  (((cost.index "tiers").asArray.getD []).foldl (fun (chosen : Value × F) tier =>
    match asF64 F (tier.index "inputTokensAbove") with
    | some boundary =>
      if Doubles.lt boundary inputTokens && Doubles.lt chosen.2 boundary then (tier, boundary)
      else chosen
    | none => chosen) (cost, Doubles.ofInt (-1))).1

/-- The cost of some tokens at the rate of a key. -/
def costOf (rates : Value) (key : String) (tokens : F) : F :=
  Doubles.mul (Doubles.div ((asF64 F (rates.index key)).getD (Doubles.ofInt 0))
    (Doubles.ofInt 1000000)) tokens

/-- A count that is no number, because it had no value, cannot be read again: the update panics. No
count of writes for an hour is ever set. -/
def updateUsage (F : Type) [Doubles F] (model : Value) (usage : Usage) (metadata : Option Value) :
    Option Usage :=
  match metadata.filter truthy with
  | none => some usage
  | some metadata => do
    let cache ← (asF64 F (metadata.index "cachedContentTokenCount")).or (asF64 F usage.cacheRead)
    let prompt ← (asF64 F (metadata.index "promptTokenCount")).or
      ((asF64 F usage.input).bind fun input =>
        (asF64 F usage.cacheRead).map fun cacheRead => Doubles.add input cacheRead)
    let candidates := metadata.get "candidatesTokenCount"
    let thoughts := metadata.get "thoughtsTokenCount"
    let output :=
      if candidates.isSome || thoughts.isSome then
        finiteNumber (Doubles.add ((candidates.bind (asF64 F)).getD (Doubles.ofInt 0))
          ((thoughts.bind (asF64 F)).getD (Doubles.ofInt 0)))
      else usage.output
    let input := finiteNumber (Doubles.max (Doubles.sub prompt cache) (Doubles.ofInt 0))
    let cacheRead := finiteNumber cache
    let inputTokens ← asF64 F input
    let outputTokens ← asF64 F output
    let readTokens ← asF64 F cacheRead
    let writeTokens ← asF64 F usage.cacheWrite
    let totalTokens := [inputTokens, outputTokens, readTokens, writeTokens].foldl Doubles.add
      (Doubles.ofInt 0)
    let rates := ratesFor (model.index "cost")
      (Doubles.add (Doubles.add inputTokens cache) writeTokens)
    let inputCost := costOf rates "input" inputTokens
    let outputCost := costOf rates "output" outputTokens
    let readCost := costOf rates "cacheRead" readTokens
    let longWrite : F := Doubles.ofInt 0
    let writeCost := Doubles.div (Doubles.add
        (Doubles.mul ((asF64 F (rates.index "cacheWrite")).getD (Doubles.ofInt 0))
          (Doubles.sub writeTokens longWrite))
        (Doubles.mul (Doubles.mul ((asF64 F (rates.index "input")).getD (Doubles.ofInt 0))
          (Doubles.ofInt 2)) longWrite))
      (Doubles.ofInt 1000000)
    let total := [inputCost, outputCost, readCost, writeCost].foldl Doubles.add (Doubles.ofInt 0)
    pure ⟨input, output, cacheRead, usage.cacheWrite, finiteNumber totalTokens,
      ⟨finiteNumber inputCost, finiteNumber outputCost, finiteNumber readCost,
        finiteNumber writeCost, finiteNumber total⟩⟩

def isNumber : Value → Bool
  | .number _ => true
  | _ => false

def isString : Value → Bool
  | .string _ => true
  | _ => false

/-- The counts and costs have the types that a message declares for them. -/
def Usage.typed (usage : Usage) : Bool :=
  usage.input.asU64.isSome && usage.output.asU64.isSome && usage.cacheRead.asU64.isSome &&
    usage.cacheWrite.asU64.isSome && usage.totalTokens.asU64.isSome &&
    isNumber usage.cost.input && isNumber usage.cost.output && isNumber usage.cost.cacheRead &&
    isNumber usage.cost.cacheWrite && isNumber usage.cost.total

end Antigravity
