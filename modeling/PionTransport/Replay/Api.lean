import PionTransport.Core.Run

/-!
# The two detector interfaces

`CheckAccepter` separates checking a sequence number from accepting it through
tokens; `ReplayDetector` returns a closure instead. A detector is a state type
with these operations, and `none` is a panic. A session keeps the tokens a
detector has issued, and may accept any of them at any later time, repeatedly
or never.
-/

namespace PionTransport.Replay

open PionTransport.Core

/-- The outcome of a replay check for one sequence number. -/
structure Token where
  seq : Nat
  passed : Bool
  deriving DecidableEq, Repr

/-- `Passed(seq)`. -/
def passedToken (seq : Nat) : Token := ⟨seq, true⟩

/-- `Rejected(seq)`, an inert token. -/
def rejectedToken (seq : Nat) : Token := ⟨seq, false⟩

/-- The token interface of a detector with state `δ`. -/
structure CheckAccepter (δ : Type) where
  checkSeq : δ → Nat → Option (δ × Token)
  accept : δ → Token → Option (δ × Bool)

/-- The closure interface; the returned function acts on the detector's later state. -/
structure ReplayDetector (δ : Type) where
  check : δ → Nat → Option (δ × (δ → Option (δ × Bool)) × Bool)

/-- The function returned with a failed check. -/
def nop {δ : Type} (d : δ) : Option (δ × Bool) := some (d, false)

/-- A detector with the tokens it has issued so far. -/
structure Session (δ : Type) where
  detector : δ
  tokens : List Token

/-- One call by a user of the token interface; tokens are named by their order of issue. -/
inductive Call
  | checkSeq (seq : Nat)
  | accept (issued : Nat)
  deriving DecidableEq, Repr

/-- The result of a call. A token that was not issued yet cannot be accepted. -/
inductive Reply
  | token (tok : Token)
  | latest (isLatest : Bool)
  | notIssued
  deriving DecidableEq, Repr

variable {δ : Type}

/-- Perform one call. -/
def CheckAccepter.step (api : CheckAccepter δ) (s : Session δ) :
    Call → Option (Session δ × Reply)
  | .checkSeq seq =>
    (api.checkSeq s.detector seq).map fun r => (⟨r.1, s.tokens ++ [r.2]⟩, .token r.2)
  | .accept issued =>
    match s.tokens[issued]? with
    | none => some (s, .notIssued)
    | some tok => (api.accept s.detector tok).map fun r => (⟨r.1, s.tokens⟩, .latest r.2)

/-- What `CheckSeq(seq)` says in a state. -/
def CheckAccepter.verdict (api : CheckAccepter δ) (d : δ) (seq : Nat) : Option Bool :=
  (api.checkSeq d seq).map fun r => r.2.passed

variable {api : CheckAccepter δ}

/-- Checks that leave a detector unchanged leave it unchanged in any number. -/
theorem CheckAccepter.run_checks_keep {s s' : Session δ} {replies : List Reply} {seqs : List Nat}
    (hkeep : ∀ seq r, api.checkSeq s.detector seq = some r → r.1 = s.detector)
    (hrun : run api.step s (seqs.map .checkSeq) = some (s', replies)) :
    s'.detector = s.detector := by
  induction seqs generalizing s replies with
  | nil =>
    obtain ⟨rfl, -⟩ := Prod.mk.inj (Option.some.inj hrun)
    rfl
  | cons seq seqs ih =>
    obtain ⟨s₁, reply, replies', hstep, hrest, -⟩ := run_cons_inv hrun
    obtain ⟨r, hcheck, he⟩ := Option.map_eq_some_iff.mp hstep
    obtain ⟨rfl, -⟩ := Prod.mk.inj he
    have hsame := hkeep seq r hcheck
    exact (ih (by simpa only [hsame] using hkeep) hrest).trans hsame

/-- Check a number through a token and accept it right away: verdict and result of `Accept`. -/
def CheckAccepter.take (api : CheckAccepter δ) (d : δ) (seq : Nat) :
    Option (δ × (Bool × Bool)) := do
  let (d, tok) ← api.checkSeq d seq
  let (d, latest) ← api.accept d tok
  return (d, (tok.passed, latest))

variable {d : δ} {seq : Nat}

theorem CheckAccepter.take_of_none (hcheck : api.checkSeq d seq = none) :
    api.take d seq = none := by
  rw [CheckAccepter.take, hcheck]
  rfl

theorem CheckAccepter.take_of_some {e : δ} {tok : Token}
    (hcheck : api.checkSeq d seq = some (e, tok)) :
    api.take d seq = (api.accept e tok).map fun r => (r.1, (tok.passed, r.2)) := by
  simp only [CheckAccepter.take, hcheck, Option.bind_eq_bind, Option.bind_some]
  cases api.accept e tok <;> rfl

/-- Check a number and call the returned closure right away. -/
def ReplayDetector.take (api : ReplayDetector δ) (d : δ) (seq : Nat) :
    Option (δ × (Bool × Bool)) := do
  let (d, accept, ok) ← api.check d seq
  let (d, latest) ← accept d
  return (d, (ok, latest))

theorem ReplayDetector.take_of_none {api : ReplayDetector δ} (hcheck : api.check d seq = none) :
    api.take d seq = none := by
  rw [ReplayDetector.take, hcheck]
  rfl

theorem ReplayDetector.take_of_some {api : ReplayDetector δ} {e : δ}
    {accept : δ → Option (δ × Bool)} {ok : Bool} (hcheck : api.check d seq = some (e, accept, ok)) :
    api.take d seq = (accept e).map fun r => (r.1, (ok, r.2)) := by
  simp only [ReplayDetector.take, hcheck, Option.bind_eq_bind, Option.bind_some]
  cases accept e <;> rfl

end PionTransport.Replay
