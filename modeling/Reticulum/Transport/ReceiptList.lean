import Reticulum.Lib.Threads
import Reticulum.Packet.Receipt

/-!
# The receipts that transport tracks

`proof_candidates`, `conclude_proved_receipts` and the part of `jobs` that checks
receipts (`src/transport.rs`). A proof is validated against the receipts it can
conclude, on clones and outside the lock, and a receipt that it delivers leaves the
list. A check pushes the oldest receipts out of a list that has grown too long.

## Implementation notes

A clone shares the state of its receipt: the states are kept in numbered cells. What a
call does under one lock is one task, and a proof leaves tasks for its candidates.
Whoever holds a clone of a receipt may do anything with it at any time.
-/

namespace Reticulum.Receipt.Tracking

/-- A receipt of `state.receipts`, or a clone of it. -/
structure Tracked where
  cell : Nat
  receipt : PacketReceipt
  truncatedHash : Bytes
  truncated_eq : truncatedHash = receipt.hash.take 16

/-- The list of receipts, and the state of each. -/
structure Core (F K : Type*) where
  receipts : List Tracked
  cells : Nat → Inner F K
  next : Nat

variable {F K : Type*}

/-- A new state for a cell. -/
def Core.put (s : Core F K) (cell : Nat) (inner : Inner F K) : Core F K :=
  { s with cells := Function.update s.cells cell inner }

def maxReceipts : Nat := 1024

def provable (s : Inner F K) : Bool := s.status = .sent ∨ s.status = .failed

/-- Whether a proof can be for a receipt, by its hash or by where it is addressed. -/
def proofFor (proof : Bytes) (addressed : Option Bytes) (r : Tracked) : Bool :=
  if proof.length = explLength then r.receipt.hash == proof.take 32
  else addressed.all fun address => r.truncatedHash == address

def proofCandidates (s : Core F K) (proof : Bytes) (addressed : Option Bytes) : List Tracked :=
  s.receipts.filter fun r => proofFor proof addressed r && provable (s.cells r.cell)

/-- How a proof is validated: as it is, or with the key of a link. -/
inductive ProofKind
  | plain
  | link (validate : Bytes → Bytes → Bool)

/-- What `conclude_proved_receipts` is called with. -/
def ProofKind.validate (c : Crypto) (kind : ProofKind) (receipt : PacketReceipt) (proof : Bytes)
    (s : Inner F K) (now : F) : Bool × Inner F K :=
  match kind with
  | .plain => validateProof c receipt proof s now
  | .link validate => validateLinkProofWith receipt proof validate s now

/-- A candidate is validated if it is still provable. -/
def validateCandidate (c : Crypto) (kind : ProofKind) (proof : Bytes) (s : Core F K) (r : Tracked)
    (now : F) : Bool × Core F K :=
  if provable (s.cells r.cell) then
    let result := kind.validate c r.receipt proof (s.cells r.cell) now
    (result.1, s.put r.cell result.2)
  else (false, s)

/-- What shares its state with a concluded receipt leaves the list. -/
def forget (s : Core F K) (cell : Nat) : Core F K :=
  { s with receipts := s.receipts.filter fun r => r.cell != cell }

/-- `conclude_proved_receipts` for one candidate. -/
def concludeCandidate (c : Crypto) (kind : ProofKind) (proof : Bytes) (now : F) (s : Core F K)
    (r : Tracked) : Core F K :=
  let result := validateCandidate c kind proof s r now
  if result.1 then forget result.2 r.cell else result.2

def concludeProvedReceipts (c : Crypto) (kind : ProofKind) (proof : Bytes) (now : F) (s : Core F K)
    (candidates : List Tracked) : Core F K :=
  candidates.foldl (concludeCandidate c kind proof now) s

/-- `validate_proof` of every receipt of a list. -/
def validateAll (c : Crypto) (proof : Bytes) (now : F) (cells : Nat → Inner F K)
    (receipts : List Tracked) : Nat → Inner F K :=
  receipts.foldl (fun cells r =>
    Function.update cells r.cell (validateProof c r.receipt proof (cells r.cell) now).2) cells

/-- `Times`, with the constant `-1.0`. -/
structure Clock (F : Type*) extends Times F where
  minusOne : F
  isMinusOne_minusOne : isMinusOne minusOne = true

/-- An operation on each receipt of a list, with what the clock shows for it. -/
def sweep (f : Inner F K → F → Inner F K) (nows : Nat → F) (cells : Nat → Inner F K)
    (receipts : List Tracked) : Nat → Inner F K :=
  receipts.foldl (fun cells r =>
    Function.update cells r.cell (f (cells r.cell) (nows r.cell))) cells

/-- `set_timeout(-1.0)` and `check_timeout`. -/
def cull (t : Clock F) (s : Inner F K) (now : F) : Inner F K :=
  checkTimeout t.toTimes { s with timeout := t.minusOne } now

/-- The oldest receipts of a list that is too long. -/
def pushedOut (s : Core F K) : List Tracked := s.receipts.take (s.receipts.length - maxReceipts)

/-- The receipts of a list that are not pushed out. -/
def kept (s : Core F K) : List Tracked := s.receipts.drop (s.receipts.length - maxReceipts)

/-- The check of receipts in `jobs`. -/
def checkReceipts (t : Clock F) (nows : Nat → F) (s : Core F K) : Core F K :=
  let cells := sweep (cull t) nows s.cells (pushedOut s)
  let cells := sweep (checkTimeout t.toTimes) nows cells (kept s)
  { s with
    receipts := (kept s).filter fun r => provable (cells r.cell)
    cells := cells }

/-- `state.receipts.push` of a new receipt. -/
def pushReceipt (s : Core F K) (receipt : PacketReceipt) (sentAt timeout : F) : Core F K where
  receipts := s.receipts ++
    [{ cell := s.next, receipt := receipt, truncatedHash := receipt.hash.take 16
       truncated_eq := rfl }]
  cells := Function.update s.cells s.next (Inner.fromParts sentAt timeout)
  next := s.next + 1

/-- What happens: a proof arrives, a packet is sent, `jobs` checks the receipts, or a holder of
a receipt does something with it. -/
inductive Call (F K : Type*)
  | proof (kind : ProofKind) (proof : Bytes) (addressed : Option Bytes)
  | send (receipt : PacketReceipt) (sentAt timeout : F)
  | check
  | hold (r : Tracked) (event : Event F K)

/-- The critical sections. -/
inductive Task (F K : Type*)
  | select (kind : ProofKind) (proof : Bytes) (addressed : Option Bytes)
  | validate (kind : ProofKind) (proof : Bytes) (r : Tracked)
  | forget (cell : Nat)
  | send (receipt : PacketReceipt) (sentAt timeout : F)
  | check
  | hold (r : Tracked) (event : Event F K)

/-- The first task of a call. -/
def start : Call F K → List (Task F K)
  | .proof kind proof addressed => [.select kind proof addressed]
  | .send receipt sentAt timeout => [.send receipt sentAt timeout]
  | .check => [.check]
  | .hold r event => [.hold r event]

/-- One task, with what the clock shows for each receipt. -/
def exec (debug : Bool) (c : Crypto) (t : Clock F) (task : Task F K) (nows : Nat → F)
    (s : Core F K) : Threads.Outcome (Core F K) (Task F K) :=
  match task with
  | .select kind proof addressed =>
      { core := s, next := (proofCandidates s proof addressed).map (.validate kind proof) }
  | .validate kind proof r =>
      let result := validateCandidate c kind proof s r (nows r.cell)
      { core := result.2, next := if result.1 then [.forget r.cell] else [] }
  | .forget cell => { core := forget s cell }
  | .send receipt sentAt timeout => { core := pushReceipt s receipt sentAt timeout }
  | .check => { core := checkReceipts t nows s }
  | .hold r event =>
      { core := s.put r.cell
          ((step debug c t.toTimes r.receipt (s.cells r.cell) event).getD (s.cells r.cell)) }

/-- The calls and their tasks. -/
def system (debug : Bool) (c : Crypto) (t : Clock F) :
    Threads.System (Core F K) (Task F K) (Nat → F) (Call F K) where
  start := start
  exec := exec debug c t

end Reticulum.Receipt.Tracking
