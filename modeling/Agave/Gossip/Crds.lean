import Mathlib
import Agave.Library.MachineInt

/-! The gossip table of replicated values (`Crds`): one value per label, where a value received for
a label replaces the one held when it `overrides` it. Contact-infos and node instances of one node
are compared by their start times first, every other value by its wallclock and then its hash. The
failed `assert_eq!` of `overrides` is `none`. -/

namespace Gossip

open MachineInt

variable {P H : Type}

structure ContactInfo (P : Type) where
  pubkey : P
  wallclock : Nat
  outset : Nat
  deriving DecidableEq, Repr

/-- A node instance; its `from` (a keyword of Lean) is `pubkey`. -/
structure NodeInstance (P : Type) where
  pubkey : P
  wallclock : Nat
  timestamp : Nat
  token : Nat
  deriving DecidableEq, Repr

/-- The kinds of value whose label is their owner alone; every other kind, with its index if it has
one, is a `kind` number, as only its label and its wallclock enter `overrides`. -/
inductive CrdsData (P : Type)
  | contactInfo (node : ContactInfo P)
  | nodeInstance (node : NodeInstance P)
  | other (kind : Nat) (pubkey : P) (wallclock : Nat)
  deriving DecidableEq, Repr

inductive CrdsValueLabel (P : Type)
  | contactInfo (pubkey : P)
  | nodeInstance (pubkey : P)
  | other (kind : Nat) (pubkey : P)
  deriving DecidableEq, Repr

/-- A value with the hash of its signature and data, computed when it was made. -/
structure CrdsValue (P H : Type) where
  data : CrdsData P
  hash : H
  deriving DecidableEq, Repr

namespace ContactInfo

variable [DecidableEq P]

/-- `None` for another node, else whether `(outset, wallclock)` is the larger, `None` on a tie. -/
def overrides (self other : ContactInfo P) : Option Bool :=
  if self.pubkey ≠ other.pubkey then none
  else
    match (compare self.outset other.outset).then (compare self.wallclock other.wallclock) with
    | .lt => some false
    | .gt => some true
    | .eq => none

end ContactInfo

namespace NodeInstance

variable [DecidableEq P]

/-- `None` for the same token or another node, else whether the timestamp is the more recent, a
tie broken by the token. -/
def overrides (self other : NodeInstance P) : Option Bool :=
  if self.token = other.token ∨ self.pubkey ≠ other.pubkey then none
  else
    match compare self.timestamp other.timestamp with
    | .lt => some false
    | .gt => some true
    | .eq => some (decide (other.token < self.token))

end NodeInstance

namespace CrdsValue

def wallclock (value : CrdsValue P H) : Nat :=
  match value.data with
  | .contactInfo node => node.wallclock
  | .nodeInstance node => node.wallclock
  | .other _ _ wallclock => wallclock

def label (value : CrdsValue P H) : CrdsValueLabel P :=
  match value.data with
  | .contactInfo node => .contactInfo node.pubkey
  | .nodeInstance node => .nodeInstance node.pubkey
  | .other kind pubkey _ => .other kind pubkey

end CrdsValue

variable [DecidableEq P] [LinearOrder H]

/-- Whether the first value updates the second, which has the same label. -/
def overrides (value other : CrdsValue P H) : Option Bool :=
  -- `assert_eq!(value.label(), other.value.label())`
  if value.label ≠ other.label then none
  else
    let special : Option Bool := match value.data, other.data with
      | .contactInfo value, .contactInfo other => value.overrides other
      | .nodeInstance value, .nodeInstance other => value.overrides other
      | _, _ => none
    match special with
    | some out => some out
    | none =>
      match compare value.wallclock other.wallclock with
      | .lt => some false
      | .gt => some true
      -- ties are broken by the hash
      | .eq => some (decide (other.hash < value.hash))

inductive GossipRoute (P : Type)
  | localMessage
  | pullRequest
  | pullResponse
  | pushMessage (pubkey : P)
  deriving DecidableEq, Repr

/-- A value in the table, with the ordinal of its insertion, the local time it was inserted, and
the pushes of it received (`u8`, saturating). -/
structure VersionedCrdsValue (P H : Type) where
  ordinal : Nat
  value : CrdsValue P H
  localTimestamp : Nat
  numPushRecv : Option Nat
  deriving DecidableEq, Repr

def VersionedCrdsValue.new (value : CrdsValue P H) (cursor localTimestamp : Nat) (route : GossipRoute P) :
    VersionedCrdsValue P H :=
  ⟨cursor, value, localTimestamp, match route with
    | .localMessage | .pullRequest => none
    | .pullResponse => some 0
    | .pushMessage _ => some 1⟩

inductive CrdsError
  | insertFailed
  | duplicatePush (numPushDups : Nat)
  deriving DecidableEq, Repr

/-- The table of values by label and the cursor of the next ordinal. -/
structure Crds (P H : Type) where
  table : CrdsValueLabel P → Option (VersionedCrdsValue P H)
  cursor : Nat

namespace Crds

/-- `Crds::default()`. -/
def empty : Crds P H := ⟨fun _ => none, 0⟩

/-- `Cursor::consume`. -/
def consume (crds : Crds P H) (ordinal : Nat) : Crds P H := { crds with cursor := max crds.cursor (ordinal + 1) }

def setEntry (crds : Crds P H) (label : CrdsValueLabel P) (value : VersionedCrdsValue P H) : Crds P H :=
  { crds with table := Function.update crds.table label (some value) }

/-- `Crds::insert`: the table after the insertion, and its result. -/
def insert (crds : Crds P H) (value : CrdsValue P H) (now : Nat) (route : GossipRoute P) :
    Option (Crds P H × Except CrdsError Unit) :=
  let label := value.label
  let versioned := VersionedCrdsValue.new value crds.cursor now route
  match crds.table label with
  | none => some ((crds.setEntry label versioned).consume versioned.ordinal, .ok ())
  | some entry =>
    match overrides value entry.value with
    | none => none
    | some true => some ((crds.setEntry label versioned).consume versioned.ordinal, .ok ())
    | some false =>
      if entry.value.hash ≠ value.hash then some (crds, .error .insertFailed)
      else
        match route with
        | .pushMessage _ =>
          let numPushDups := entry.numPushRecv.getD 0
          some (crds.setEntry label { entry with numPushRecv := some (saturatingAdd 8 numPushDups 1) },
            .error (.duplicatePush numPushDups))
        | _ => some (crds, .error .insertFailed)

/-- The value a table holds for a label. -/
def get (crds : Crds P H) (label : CrdsValueLabel P) : Option (CrdsValue P H) :=
  (crds.table label).map (·.value)

end Crds

/-- Three node instances of node `0`: the first two share a token, so their wallclocks decide between
them, while the third is compared with each by start time. Each overrides the next around a cycle,
and inserting them in two orders leaves two different values in the table. -/
theorem overrides_cycle_insert_order :
    let first : CrdsValue Nat Nat := ⟨.nodeInstance ⟨0, 10, 5, 1⟩, 1⟩
    let second : CrdsValue Nat Nat := ⟨.nodeInstance ⟨0, 20, 3, 1⟩, 2⟩
    let third : CrdsValue Nat Nat := ⟨.nodeInstance ⟨0, 0, 4, 2⟩, 3⟩
    overrides first third = some true ∧ overrides third second = some true ∧ overrides second first = some true ∧
      ((Crds.empty.insert first 0 .localMessage).bind fun crds => (crds.1.insert second 0 .localMessage).bind
        fun crds => crds.1.insert third 0 .localMessage).map (·.1.get (.nodeInstance 0)) = some (some third) ∧
      ((Crds.empty.insert third 0 .localMessage).bind fun crds => (crds.1.insert second 0 .localMessage).bind
        fun crds => crds.1.insert first 0 .localMessage).map (·.1.get (.nodeInstance 0)) = some (some first) := by
  decide

end Gossip
