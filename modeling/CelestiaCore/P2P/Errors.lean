import Mathlib.Data.String.Lemmas

set_option autoImplicit false

/- `ErrRejected.Error` (p2p/errors.go): why a peer was rejected, then the diagnostic fields
that are set, joined by `" | "`. The connection enters only through its remote address and the
wrapped error only through its text, `none` for a nil `conn` or `err`. The other error types of
the file print fixed texts and are left out. -/

namespace CelestiaCore.P2P

/-- `ErrRejected`, with the fields `Error` reads. -/
structure ErrRejected where
  /-- `conn.RemoteAddr().String()`, `none` for a nil `conn`. -/
  conn : Option String
  /-- `err.Error()`, `none` for a nil `err`. -/
  err : Option String
  id : String
  isAuthFailure : Bool
  isDuplicate : Bool
  isFiltered : Bool
  isIncompatible : Bool
  isNodeInfoInvalid : Bool
  isSelf : Bool
  localNodeID : String
  remoteNodeID : String
  localAddr : String
  remoteAddr : String
  handshakeStage : String
  traceID : String
  chainID : String
  peerChainID : String
  malformedHandshake : Bool
  deriving Repr

/-- `fmt`'s `%s` of an `error`: its text, and `%!s(<nil>)` for nil. -/
def formatError : Option String → String
  | some text => text
  | none => "%!s(<nil>)"

namespace ErrRejected

/-- The `switch` of `Error`: the first reason that is set, and nothing for a duplicate or a
filtered peer known by neither a connection nor an ID. -/
def base (e : ErrRejected) : String :=
  if e.isAuthFailure then "auth failure: " ++ formatError e.err
  else if e.isDuplicate then
    match e.conn with
    | some addr => "duplicate CONN<" ++ addr ++ ">"
    | none => if e.id ≠ "" then "duplicate ID<" ++ e.id ++ ">" else ""
  else if e.isFiltered then
    match e.conn with
    | some addr => "filtered CONN<" ++ addr ++ ">: " ++ formatError e.err
    | none => if e.id ≠ "" then "filtered ID<" ++ e.id ++ ">: " ++ formatError e.err else ""
  else if e.isIncompatible then "incompatible: " ++ formatError e.err
  else if e.isNodeInfoInvalid then "invalid NodeInfo: " ++ formatError e.err
  else if e.isSelf then "self ID<" ++ e.id ++ ">"
  else formatError e.err

/-- `key=value` when the value is set. -/
def field (key value : String) : List String := if value ≠ "" then [key ++ "=" ++ value] else []

/-- The diagnostic fields `Error` appends after the reason, in its order. -/
def fields (e : ErrRejected) : List String :=
  field "localNodeID" e.localNodeID ++ field "remoteNodeID" e.remoteNodeID ++
    field "localAddr" e.localAddr ++ field "remoteAddr" e.remoteAddr ++
    field "handshakeStage" e.handshakeStage ++ field "traceID" e.traceID ++
    field "chainID" e.chainID ++ field "peerChainID" e.peerChainID ++
    (if e.malformedHandshake then ["malformed_handshake=true"] else [])

/-- `Error`. -/
def error (e : ErrRejected) : String := " | ".intercalate (e.base :: e.fields)

end ErrRejected

theorem append_eq_empty {s t : String} : s ++ t = "" ↔ s = "" ∧ t = "" := by
  simp [String.ext_iff]

theorem intercalate_go_length (sep : String) (acc : String) (rest : List String) :
    acc.length + (if rest = [] then 0 else sep.length) ≤
      (String.intercalate.go acc sep rest).length := by
  induction rest generalizing acc with
  | nil => simp [String.intercalate.go]
  | cons x rest ih =>
    have := ih (acc ++ sep ++ x)
    simp only [String.length_append] at this
    simp only [String.intercalate.go, reduceCtorEq, if_false]
    split at this <;> omega

/-- `strings.Join(fields, sep)` with a non-empty separator is empty exactly when it joins one
empty string. -/
theorem intercalate_cons_eq_empty {sep x : String} {rest : List String} (nonempty : sep ≠ "") :
    sep.intercalate (x :: rest) = "" ↔ x = "" ∧ rest = [] := by
  cases rest with
  | nil => simp [String.intercalate, String.intercalate.go]
  | cons y rest =>
    have sepPos : 0 < sep.length := by
      rcases sep with ⟨_ | _⟩
      · exact absurd rfl nonempty
      · simp [String.length]
    have long := intercalate_go_length sep x (y :: rest)
    simp only [reduceCtorEq, if_false] at long
    refine ⟨fun empty => ?_, fun ⟨_, nil⟩ => absurd nil nofun⟩
    have : String.intercalate.go x sep (y :: rest) = "" := empty
    rw [this] at long
    simp at long
    omega

namespace ErrRejected

theorem formatError_eq_empty {err : Option String} : formatError err = "" ↔ err = some "" := by
  cases err <;> simp [formatError]

/-- The reason is empty for a duplicate or filtered peer known by neither a connection nor an
ID, and for a plain rejection whose error has an empty text. -/
theorem base_eq_empty (e : ErrRejected) : e.base = "" ↔
    (e.isAuthFailure = false ∧ (e.isDuplicate = true ∨ e.isFiltered = true) ∧
      e.conn = none ∧ e.id = "") ∨
    (e.isAuthFailure = false ∧ e.isDuplicate = false ∧ e.isFiltered = false ∧
      e.isIncompatible = false ∧ e.isNodeInfoInvalid = false ∧ e.isSelf = false ∧
      e.err = some "") := by
  unfold base
  cases e.isAuthFailure
  case true => simp [append_eq_empty]
  cases e.isDuplicate
  case true => cases e.conn <;> simp [append_eq_empty]
  cases e.isFiltered
  case true => cases e.conn <;> simp [append_eq_empty]
  cases e.isIncompatible <;> cases e.isNodeInfoInvalid <;> cases e.isSelf <;>
    simp [append_eq_empty, formatError_eq_empty]

theorem fields_eq_nil (e : ErrRejected) : e.fields = [] ↔
    e.localNodeID = "" ∧ e.remoteNodeID = "" ∧ e.localAddr = "" ∧ e.remoteAddr = "" ∧
      e.handshakeStage = "" ∧ e.traceID = "" ∧ e.chainID = "" ∧ e.peerChainID = "" ∧
      e.malformedHandshake = false := by
  simp [fields, field]

theorem error_eq_empty (e : ErrRejected) : e.error = "" ↔ e.base = "" ∧ e.fields = [] := by
  rw [error, intercalate_cons_eq_empty (by decide)]

end ErrRejected

end CelestiaCore.P2P
