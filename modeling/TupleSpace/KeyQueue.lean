import TupleSpace.Entry

/-!
# The queue of one key

The entries stored under one key, the head first.  Every operation that walks the queue drops the
expired entries it passes and says how many they were, so what a caller finds never depends on when
expired entries were last swept; entries behind the place where the walk stops are left alone.
-/

namespace TupleSpace

/-- The entries stored under one key, the head first. -/
structure KeyQueue (α : Type) where
  entries : List (Entry α) := []
deriving DecidableEq, Repr

/-- Where an insertion puts its entry. -/
inductive Placement where
  /-- Behind all others. -/
  | tail
  /-- In front of all others. -/
  | head
  /-- In place of all others. -/
  | replace
deriving DecidableEq, Repr

/-- What a walk along a queue left, found, and dropped. -/
structure Scan (α β : Type) where
  queue : KeyQueue α
  found : β
  expired : Nat
deriving DecidableEq, Repr

namespace Scan

variable {α β : Type}

/-- Puts a live entry that a walk has passed back in front of what the walk left. -/
def keep (e : Entry α) (s : Scan α β) : Scan α β :=
  { s with queue := ⟨e :: s.queue.entries⟩ }

/-- Drops an expired entry that a walk has passed. -/
def drop (s : Scan α β) : Scan α β :=
  { s with expired := s.expired + 1 }

end Scan

namespace KeyQueue

variable {α : Type}

/-- The queue without entries. -/
def empty : KeyQueue α := ⟨[]⟩

instance : Inhabited (KeyQueue α) := ⟨empty⟩

/-- The number of entries, expired ones included. -/
def size (q : KeyQueue α) : Nat := q.entries.length

/-- Whether there is no entry at all. -/
def isEmpty (q : KeyQueue α) : Bool := q.entries.isEmpty

/-- Puts an entry in its place. -/
def insert (q : KeyQueue α) (e : Entry α) : Placement → KeyQueue α
  | .tail => ⟨q.entries ++ [e]⟩
  | .head => ⟨e :: q.entries⟩
  | .replace => ⟨[e]⟩

/-- Walks to the first live entry that is accepted and takes it. -/
def takeFirstFrom (now : Nat) (accepts : α → Bool) : List (Entry α) → Scan α (Option α)
  | [] => ⟨empty, none, 0⟩
  | e :: rest =>
    if e.isExpired now then (takeFirstFrom now accepts rest).drop
    else if accepts e.value then ⟨⟨rest⟩, some e.value, 0⟩
    else (takeFirstFrom now accepts rest).keep e

/-- Walks to the first live entry that is accepted and leaves it in place. -/
def readFirstFrom (now : Nat) (accepts : α → Bool) : List (Entry α) → Scan α (Option α)
  | [] => ⟨empty, none, 0⟩
  | e :: rest =>
    if e.isExpired now then (readFirstFrom now accepts rest).drop
    else if accepts e.value then ⟨⟨e :: rest⟩, some e.value, 0⟩
    else (readFirstFrom now accepts rest).keep e

/-- Takes the first live entry that is accepted. -/
def takeFirst (q : KeyQueue α) (now : Nat) (accepts : α → Bool) : Scan α (Option α) :=
  takeFirstFrom now accepts q.entries

/-- Reads the first live entry that is accepted. -/
def readFirst (q : KeyQueue α) (now : Nat) (accepts : α → Bool) : Scan α (Option α) :=
  readFirstFrom now accepts q.entries

/-- Drops the expired entries at the head, up to the first live one. -/
def trimHeadFrom (now : Nat) : List (Entry α) → Scan α Unit
  | [] => ⟨empty, (), 0⟩
  | e :: rest =>
    if e.isExpired now then (trimHeadFrom now rest).drop else ⟨⟨e :: rest⟩, (), 0⟩

/-- Drops the expired entries at the head, up to the first live one. -/
def trimHead (q : KeyQueue α) (now : Nat) : Scan α Unit :=
  trimHeadFrom now q.entries

/-- Whether there is a live entry; the expired ones in front of it are dropped. -/
def hasLive (q : KeyQueue α) (now : Nat) : Scan α Bool :=
  let s := q.trimHead now
  ⟨s.queue, !s.queue.isEmpty, s.expired⟩

/-- Drops every expired entry; what is found is whether an entry that will expire remains. -/
def purgeExpired (q : KeyQueue α) (now : Nat) : Scan α Bool :=
  let live := q.entries.filter fun e => e.isLive now
  ⟨⟨live⟩, live.any fun e => e.expiresAt.isSome, q.entries.length - live.length⟩

/-- The live entries in order. -/
def live (q : KeyQueue α) (now : Nat) : List (Entry α) :=
  q.entries.filter fun e => e.isLive now

/-- The first live value, without dropping anything. -/
def peek? (q : KeyQueue α) (now : Nat) : Option α :=
  q.entries.findSome? fun e => e.get? now

end KeyQueue

end TupleSpace
