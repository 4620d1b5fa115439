/-!
# The benchmark

Producers send numbered messages through a space and consumers receive them.  Message `n` goes to
the key `n % keys`, and every key belongs to one consumer, who knows how many messages to expect
under it.  A run counts what is received and sums it up, to notice messages that were lost or
duplicated.

A space appears here only through what can be done with it, so a run can be asked for of anything
that sends and receives.  In a run the producers go first, one after the other, and the consumers
after them; this is one of the orders in which threads can run.
-/

namespace TupleSpace

/-- The engine that a benchmark exercises. -/
inductive BenchEngine where
  | perKey
  | singleLock
deriving DecidableEq, Repr

/-- The scheme under which spaces with an engine are looked up. -/
def BenchEngine.scheme : BenchEngine → String
  | perKey => "tspace"
  | singleLock => "gspace"

/-- The size of a benchmark. -/
structure Bench where
  engine : BenchEngine := .perKey
  producers : Nat := 4
  consumers : Nat := 4
  /-- The number of keys over which the messages are spread. -/
  keys : Nat := 16
  /-- The number of messages sent by each producer. -/
  messages : Nat := 10000
deriving DecidableEq, Repr

/-- What a benchmark needs of a space: sending a message under a key, receiving the next one, and
the number of messages left. -/
structure MessageSpace (σ : Type) where
  send : (key message : Nat) → σ → σ
  receive : (key : Nat) → σ → σ × Option Nat
  left : σ → (key : Nat) → Nat

/-- How a run fails. -/
inductive BenchFailure where
  /-- A message did not come in time. -/
  | lost (key : Nat)
  /-- Not all messages came, or their sum is wrong. -/
  | mismatch (received total : Nat)
  /-- Messages are left in the space. -/
  | leftover (count : Nat)
deriving DecidableEq, Repr

/-- The failure in words. -/
def BenchFailure.message : BenchFailure → String
  | lost key => "message lost on key " ++ toString key
  | mismatch received total =>
    "received " ++ toString received ++ " of " ++ toString total ++
      " messages or values were duplicated"
  | leftover count => toString count ++ " messages left in the space"

/-- What the consumers have received: how many messages, and their sum modulo `2 ^ 64`. -/
structure Tally where
  received : Nat := 0
  checksum : UInt64 := 0
deriving DecidableEq, Repr

/-- Counts one message. -/
def Tally.add (t : Tally) (message : Nat) : Tally :=
  ⟨t.received + 1, t.checksum + UInt64.ofNat message⟩

namespace Bench

/-- Whether there is anybody to send and to receive, and a key to do it under. -/
def isPossible (b : Bench) : Bool :=
  b.producers != 0 && b.consumers != 0 && b.keys != 0

/-- The number of messages. -/
def total (b : Bench) : Nat := b.messages * b.producers

/-- The number of the message that a producer sends after `i` others. -/
def messageOf (b : Bench) (producer i : Nat) : Nat := producer * b.messages + i

/-- The messages of one producer. -/
def sentBy (b : Bench) (producer : Nat) : List Nat :=
  (List.range b.messages).map (b.messageOf producer)

/-- The messages of all producers. -/
def sent (b : Bench) : List Nat :=
  (List.range b.producers).flatMap b.sentBy

/-- The key of a message. -/
def keyOf (b : Bench) (message : Nat) : Nat := message % b.keys

/-- The number of messages that a consumer expects under a key. -/
def expectedPerKey (b : Bench) (key : Nat) : Nat :=
  b.total / b.keys + if key < b.total % b.keys then 1 else 0

/-- Whether a key belongs to a consumer. -/
def owns (b : Bench) (consumer key : Nat) : Bool := key % b.consumers == consumer

/-- The keys of a consumer. -/
def owned (b : Bench) (consumer : Nat) : List Nat :=
  (List.range b.keys).filter (b.owns consumer)

/-- The sum of all messages as the run computes it, in words of 64 bits. -/
def expectedChecksum (total : UInt64) : UInt64 :=
  total * (if total = 0 then 0 else total - 1) / 2

variable {σ : Type}

/-- Sends messages, each under its key. -/
def sendAll (b : Bench) (space : MessageSpace σ) (messages : List Nat) (s : σ) : σ :=
  messages.foldl (fun s n => space.send (b.keyOf n) n s) s

/-- Receives so many messages under a key. -/
def receiveMany (space : MessageSpace σ) (key : Nat) :
    Nat → σ → Tally → Except BenchFailure (σ × Tally)
  | 0, s, t => .ok (s, t)
  | count + 1, s, t =>
    match space.receive key s with
    | (s, some n) => receiveMany space key count s (t.add n)
    | (_, none) => .error (.lost key)

/-- Receives the expected messages under some keys. -/
def receiveKeys (b : Bench) (space : MessageSpace σ) :
    List Nat → σ → Tally → Except BenchFailure (σ × Tally)
  | [], s, t => .ok (s, t)
  | key :: rest, s, t =>
    match receiveMany space key (b.expectedPerKey key) s t with
    | .ok (s, t) => receiveKeys b space rest s t
    | .error e => .error e

/-- The keys of all consumers, one consumer after the other. -/
def receivingOrder (b : Bench) : List Nat :=
  (List.range b.consumers).flatMap b.owned

/-- The number of messages left under all keys. -/
def leftIn (b : Bench) (space : MessageSpace σ) (s : σ) : Nat :=
  ((List.range b.keys).map (space.left s)).foldr (· + ·) 0

/-- A run: everything is sent and then received, nothing may be missing and nothing left. -/
def run (b : Bench) (space : MessageSpace σ) (s : σ) : Except BenchFailure σ :=
  match b.receiveKeys space b.receivingOrder (b.sendAll space b.sent s) {} with
  | .error e => .error e
  | .ok (s, t) =>
    if t.received ≠ b.total ∨ t.checksum ≠ expectedChecksum (UInt64.ofNat b.total) then
      .error (.mismatch t.received b.total)
    else if b.leftIn space s ≠ 0 then .error (.leftover (b.leftIn space s))
    else .ok s

end Bench

end TupleSpace
