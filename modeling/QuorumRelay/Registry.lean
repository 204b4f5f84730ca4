import QuorumRelay.Inbound.Batch
import QuorumRelay.Membership
import QuorumRelay.Outbound.Queue

/-!
# The registry

All records of one bridge, held together without a ledger: the bridge record and
the roster, the chains, sponsors, receipts and cursors by name, and the outbound
messages in the order in which they were queued.

A step of the program works on a part of the registry.  The part is got before
the step and put back after it, also after a step that fails, so a registry shows
what the steps themselves write and never what a ledger would undo.
-/

namespace QuorumRelay

/-- The records of one bridge. -/
structure Registry where
  bridge : Bridge := {}
  roster : Roster := {}
  chains : List (String × Chain) := []
  sponsors : List (String × Sponsor) := []
  receipts : List (String × Receipt) := []
  cursors : List (String × Cursor) := []
  outbound : List OutboundMessage := []
  deriving DecidableEq

namespace Registry

/-! ## Records under names -/

section Entries

variable {α : Type}

/-- Put a record under a name; a new name goes to the end. -/
def putEntry (name : String) (a : α) : List (String × α) → List (String × α)
  | [] => [(name, a)]
  | (other, b) :: rest =>
    if name = other then (name, a) :: rest else (other, b) :: putEntry name a rest

@[simp] theorem lookup_putEntry_self (name : String) (a : α) (entries : List (String × α)) :
    (putEntry name a entries).lookup name = some a := by
  induction entries with
  | nil => simp [putEntry]
  | cons e rest ih =>
    obtain ⟨other, b⟩ := e
    by_cases h : name = other
    · simp [putEntry, h]
    · have hne : (name == other) = false := by simp [h]
      simp [putEntry, h, List.lookup_cons, hne, ih]

theorem lookup_putEntry_of_ne {name key : String} (a : α) (entries : List (String × α))
    (h : key ≠ name) : (putEntry name a entries).lookup key = entries.lookup key := by
  have hne : (key == name) = false := by simp [h]
  induction entries with
  | nil => simp [putEntry, List.lookup_cons, hne]
  | cons e rest ih =>
    obtain ⟨other, b⟩ := e
    by_cases hn : name = other
    · subst hn
      simp [putEntry, List.lookup_cons, hne]
    · simp only [putEntry, hn, if_false, List.lookup_cons, ih]

/-- The entries that are new or differ from before. -/
def changedEntries [DecidableEq α] (before after : List (String × α)) : List (String × α) :=
  after.filter fun (name, a) => before.lookup name ≠ some a

end Entries

/-! ## Parts -/

/-- A part of the registry that a step works on. -/
structure Part (σ : Type) where
  get : Registry → σ
  put : σ → Registry → Registry

namespace Part

variable {σ ω α : Type}

/-- Run a step on a part. -/
def run (p : Part σ) (step : Action σ α) : Action Registry α :=
  step.on p.get p.put

/-- The bridge record. -/
def bridge : Part Bridge where
  get r := r.bridge
  put bridge r := { r with bridge }

/-- The roster. -/
def roster : Part Roster where
  get r := r.roster
  put roster r := { r with roster }

/-- The chain under a name; an unused name stands for a blank record. -/
def chain (name : String) : Part Chain where
  get r := (r.chains.lookup name).getD {}
  put c r := { r with chains := putEntry name c r.chains }

/-- The sponsor under a name; an unused name stands for a blank record. -/
def sponsor (name : String) : Part Sponsor where
  get r := (r.sponsors.lookup name).getD {}
  put s r := { r with sponsors := putEntry name s r.sponsors }

/-- The receipt under a name; an unused name stands for a blank record. -/
def receipt (name : String) : Part Receipt where
  get r := (r.receipts.lookup name).getD {}
  put x r := { r with receipts := putEntry name x r.receipts }

/-- The cursor under a name; an unused name stands for a blank record. -/
def cursor (name : String) : Part Cursor where
  get r := (r.cursors.lookup name).getD {}
  put c r := { r with cursors := putEntry name c r.cursors }

/-- An outbound message by its place. -/
def message (place : Nat) : Part OutboundMessage where
  get r := r.outbound.getD place {}
  put m r := { r with outbound := r.outbound.set place m }

/-- A part that may be left out. -/
def optional : Option (Part σ) → Part (Option σ)
  | none => ⟨fun _ => none, fun _ r => r⟩
  | some p => ⟨fun r => some (p.get r), fun a r => (a.map fun a => p.put a r).getD r⟩

/-- Several parts of one kind. -/
def all (ps : List (Part σ)) : Part (List σ) where
  get r := ps.map fun p => p.get r
  put as r := (ps.zip as).foldl (fun r (p, a) => p.put a r) r

/-- What membership changes. -/
def membership : Part Membership where
  get r := { bridge := r.bridge, roster := r.roster }
  put m r := { r with bridge := m.bridge, roster := m.roster }

/-- What settling the message at a place changes. -/
def settlement (place : Nat) : Part Settlement where
  get r := { bridge := r.bridge, message := (message place).get r }
  put s r := (message place).put s.message { r with bridge := s.bridge }

/-- What queueing a message changes. -/
def outbox (chainName : String) (sponsorName : Option String) : Part Outbox where
  get r :=
    { bridge := r.bridge
      chain := (chain chainName).get r
      sponsor := (optional (sponsorName.map sponsor)).get r }
  put o r :=
    (optional (sponsorName.map sponsor)).put o.sponsor
      ((chain chainName).put o.chain { r with bridge := o.bridge })

/-- What executing a message changes, next to a world outside the registry. -/
def inbound (chainName receiptName : String) (cursorName : Option String) (world : ω) :
    Part (Inbound.State ω) where
  get r :=
    { chain := (chain chainName).get r
      roster := r.roster
      receipt := (receipt receiptName).get r
      cursor := (optional (cursorName.map cursor)).get r
      world }
  put s r :=
    (optional (cursorName.map cursor)).put s.cursor
      ((receipt receiptName).put s.receipt
        ((chain chainName).put s.chain { r with roster := s.roster }))

/-- What executing a batch changes, next to a world outside the registry. -/
def batch (chainName : String) (receiptNames : List String) (world : ω) :
    Part (Inbound.BatchState ω) where
  get r :=
    { chain := (chain chainName).get r
      roster := r.roster
      receipts := (all (receiptNames.map receipt)).get r
      world }
  put s r :=
    (all (receiptNames.map receipt)).put s.receipts
      ((chain chainName).put s.chain { r with roster := s.roster })

end Part

/-! ## Queueing -/

/-- Queue a message at the end of the outbound messages and tell its place. -/
def queue (chainName : String) (sponsorName : Option String) (sender : Key) (q : SendRequest)
    (now : Slot) : Action Registry Nat := do
  let m ← (Part.outbox chainName sponsorName).run (Outbox.queue sender q now)
  let r ← get
  set { r with outbound := r.outbound ++ [m] }
  return r.outbound.length

end Registry
end QuorumRelay
