import RpiPackage.Lib.Json
import RpiPackage.Lib.Result

/-!
# Pages of a native history

The host answers `get_messages` with one page of a branch. A page is accepted only if it fits the
request, the branch seen so far and its own bounds.
-/

namespace History

open Json Result

def maxPageMessages : Nat := 128
def maxPageBytes : Nat := 8 * 1024 * 1024
def maxSpoolBytes : Nat := 512 * 1024 * 1024

structure BranchAnchor where
  leafId : Option String
  total : UInt64
  deriving DecidableEq

structure MessagePage where
  messages : List Value
  anchor : BranchAnchor
  firstId : Option String
  lastId : Option String
  hasMore : Bool

/-! ### Validation -/

/-- The compact text of a value, written while it fits a page. -/
def boundedJson (value : Value) : Except String (List UInt8) :=
  let bytes := value.compact.toUTF8.data.toList
  if maxPageBytes < bytes.length then .error "history page exceeds byte budget" else .ok bytes

def isEntryId (id : String) : Bool := id != "" && decide (id.utf8ByteSize ≤ 1024)

def optionalId (data : Value) (key : String) : Except String (Option String) :=
  match data.get key with
  | some .null => .ok none
  | some (.string id) => if isEntryId id then .ok (some id) else .error ("invalid history " ++ key)
  | _ => .error ("invalid history " ++ key)

def entryId (message : Value) : Option String := (message.index "entryId").asStr

/-- Every message has an id of its own other than the cursor, and a role. -/
def checkEntries (before : Option String) : List Value → List String → Except String Unit
  | [], _ => .ok ()
  | message :: messages, ids =>
    match (entryId message).filter isEntryId with
    | none => .error "invalid history entryId"
    | some id =>
      if some id = before ∨ id ∈ ids ∨ (message.index "role").asStr.isNone then
        .error "invalid or repeated history entry"
      else checkEntries before messages (ids ++ [id])

/-- A count of messages that cannot belong to the request. -/
def badPagination (count : Nat) (before : Option String) (limit : Nat) (total : UInt64)
    (hasMore : Bool) : Bool :=
  decide (limit < count) || decide (total.toNat < count)
    || (before.isSome && decide (total.toNat ≤ count))
    || (hasMore && (count != limit || decide (total.toNat ≤ count)))
    || (before.isNone && !hasMore && count != total.toNat)

def validatePage (data : Value) (before : Option String) (limit : Nat)
    (expected : Option BranchAnchor) : Except String MessagePage := do
  failIf (limit < 1 ∨ maxPageMessages < limit) "history page limit out of range"
  let _ ← boundedJson data
  let leafId ← optionalId data "leafId"
  let total ← okOr (data.index "total").asU64 "invalid history total"
  let anchor : BranchAnchor := ⟨leafId, total⟩
  failIf (0 < total ∧ leafId = none) "missing history branch leaf"
  failIf (∃ a ∈ expected, a ≠ anchor) "history branch changed"
  let beforeId ← optionalId data "beforeId"
  failIf (beforeId ≠ before) "history cursor echo mismatch"
  let firstId ← optionalId data "firstId"
  let lastId ← optionalId data "lastId"
  let hasMore ← okOr (data.index "hasMore").asBool "invalid history hasMore"
  let messages ← okOr (data.index "messages").asArray "invalid history messages"
  failIf (badPagination messages.length before limit total hasMore)
    "inconsistent history pagination"
  checkEntries before messages []
  failIf (firstId ≠ messages.head?.bind entryId ∨ lastId ≠ messages.getLast?.bind entryId
    ∨ (hasMore = true ∧ messages = [])) "inconsistent history page bounds"
  return ⟨messages, anchor, firstId, lastId, hasMore⟩

/-- What an accepted page has to be. -/
structure MessagePage.Fits (page : MessagePage) (data : Value) (before : Option String)
    (limit : Nat) (expected : Option BranchAnchor) : Prop where
  messages : (data.index "messages").asArray = some page.messages
  anchor : ∀ anchor ∈ expected, page.anchor = anchor
  pagination : badPagination page.messages.length before limit page.anchor.total page.hasMore = false
  entries : checkEntries before page.messages [] = .ok ()
  firstId : page.firstId = page.messages.head?.bind entryId

lemma validatePage_eq_ok {data : Value} {before : Option String} {limit : Nat}
    {expected : Option BranchAnchor} {page : MessagePage}
    (h : validatePage data before limit expected = .ok page) :
    page.Fits data before limit expected := by
  simp only [validatePage, bind_eq_ok, pure_eq_ok, failIf_eq_ok, okOr_eq_ok] at h
  obtain ⟨-, -, -, -, leafId, -, total, -, -, -, -, hanchor, beforeId, -, -, -, firstId, -, lastId,
    -, hasMore, -, messages, hmessages, -, hpagination, ⟨⟩, hentries, -, hbounds, h⟩ := h
  obtain rfl := Except.ok.inj h
  refine ⟨hmessages, fun anchor hmem => ?_, by simpa using hpagination, hentries, ?_⟩
  · by_contra hne
    exact hanchor ⟨anchor, hmem, Ne.symm hne⟩
  · by_contra hne
    exact hbounds (.inl hne)

/-- Every accepted message has an id. -/
lemma entryId_of_checkEntries {before : Option String} {messages : List Value} {ids : List String}
    (h : checkEntries before messages ids = .ok ()) :
    ∀ message ∈ messages, ∃ id, entryId message = some id := by
  induction messages generalizing ids with
  | nil => simp
  | cons message messages ih =>
    unfold checkEntries at h
    rcases hid : (entryId message).filter isEntryId with _ | id
    · simp [hid] at h
    · simp only [hid, ite_error_eq_ok] at h
      obtain ⟨hsome, -⟩ := Option.filter_eq_some_iff.mp hid
      intro m hm
      rcases List.mem_cons.mp hm with rfl | hm
      · exact ⟨id, hsome⟩
      · exact ih h.2 m hm

namespace MessagePage.Fits

variable {page : MessagePage} {data : Value} {before : Option String} {limit : Nat}
variable {expected : Option BranchAnchor}

/-- Only a full page says that there is more. -/
lemma length_eq (h : page.Fits data before limit expected) (hmore : page.hasMore = true) :
    page.messages.length = limit := by
  have hpagination := h.pagination
  simp only [badPagination, hmore, Bool.true_and, Bool.or_eq_false_iff, bne_eq_false_iff_eq]
    at hpagination
  exact hpagination.1.2.1

end MessagePage.Fits

end History
