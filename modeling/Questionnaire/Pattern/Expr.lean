import Questionnaire.Pattern.CharSet

/-
  Patterns and what they match.

  A pattern is matched against a whole text at once: `ends` maps the set of positions where a
  match may start to the set of positions where it may end. Positions are the gaps between the
  characters, and a set of them is the natural number with those bits. A text matches when any
  match starts anywhere.
-/

namespace Questionnaire.Pattern

/-- Which side of a gap is asked about word characters. -/
inductive WordEdge
  | boundary
  | inside
  | start
  | stop
  | startHalf
  | stopHalf
deriving DecidableEq, Repr

/-- A condition on a gap between characters. -/
inductive Look
  | textStart
  | textEnd
  | lineStart (crlf : Bool)
  | lineEnd (crlf : Bool)
  | word (unicode : Bool) (edge : WordEdge)
deriving DecidableEq, Repr

/-- Whether a gap's condition on words holds, given whether word characters stand before and after
it. -/
def WordEdge.holds (before after : Bool) : WordEdge → Bool
  | .boundary => before != after
  | .inside => before == after
  | .start => !before && after
  | .stop => before && !after
  | .startHalf => !before
  | .stopHalf => !after

/-- Whether a condition holds between two characters; none stands beyond the ends of the text. -/
def Look.holds (before after : Option Char) : Look → Bool
  | .textStart => before.isNone
  | .textEnd => after.isNone
  | .lineStart false => before.isNone || before = some '\n'
  | .lineStart true =>
    before.isNone || before = some '\n' || (before = some '\r' && after ≠ some '\n')
  | .lineEnd false => after.isNone || after = some '\n'
  | .lineEnd true =>
    after.isNone || after = some '\r' || (after = some '\n' && before ≠ some '\r')
  | .word unicode edge =>
    let isWord := (if unicode then CharSet.wordChars else CharSet.asciiWordChars).holds
    edge.holds (before.any isWord) (after.any isWord)

/-- A pattern. -/
inductive Expr
  | empty
  | chars (set : CharSet)
  | look (l : Look)
  | seq (a b : Expr)
  | alt (a b : Expr)
  /-- At least `low` and at most `high` times in a row. -/
  | rep (e : Expr) (low : Nat) (high : Option Nat)

/-! ## Matching -/

/-- A set of positions. -/
abbrev Positions := Nat

/-- All positions of a text. -/
def Positions.all (cs : Array Char) : Positions := (1 <<< (cs.size + 1)) - 1

/-- The positions behind a character of a set that stands at one of the given positions. -/
def Positions.step (cs : Array Char) (set : CharSet) (ps : Positions) : Positions :=
  (List.range cs.size).foldl (fun (found : Nat) i =>
    if Nat.testBit ps i && cs[i]?.any set.holds then found ||| (1 <<< (i + 1)) else found) 0

/-- The positions among the given ones where a condition holds. -/
def Positions.filter (cs : Array Char) (l : Look) (ps : Positions) : Positions :=
  (List.range (cs.size + 1)).foldl (fun (found : Nat) i =>
    if Nat.testBit ps i && l.holds (if i = 0 then none else cs[i - 1]?) cs[i]? then
      found ||| (1 <<< i)
    else found) 0

/-- A function applied up to `n` times, until it changes nothing. -/
def iterate (f : Positions → Positions) : Nat → Positions → Positions
  | 0, ps => ps
  | n + 1, ps => let next := f ps; if next = ps then ps else iterate f n next

/-- The number of repetitions of a pattern after which more of them reach no other positions. -/
def repetitionBound (cs : Array Char) : Nat := 2 * (cs.size + 2)

/-- Where matches end that start at the given positions. -/
def Expr.ends (cs : Array Char) : Expr → Positions → Positions
  | .empty, ps => ps
  | .chars set, ps => ps.step cs set
  | .look l, ps => ps.filter cs l
  | .seq a b, ps => b.ends cs (a.ends cs ps)
  | .alt a b, ps => a.ends cs ps ||| b.ends cs ps
  | .rep e low high, ps =>
    let bound := repetitionBound cs
    let least := iterate (e.ends cs) (min low bound) ps
    let more := match high with
      | none => bound
      | some high => min (high - low) bound
    iterate (fun found => found ||| e.ends cs found) more least

/-- Whether a pattern matches somewhere in a text. -/
def Expr.isMatch (e : Expr) (s : String) : Bool :=
  let cs := s.toList.toArray
  e.ends cs (.all cs) != 0

/-! ## Size -/

/-- About the number of states of the pattern's automaton. -/
def Expr.states : Expr → Nat
  | .empty => 0
  | .chars set => 1 + 2 * set.spread
  | .look _ => 1
  | .seq a b => a.states + b.states
  | .alt a b => a.states + b.states + 1
  | .rep e low none => (max low 1) * e.states + 1
  | .rep e low (some high) => high * e.states + (high - low)

/-- The greatest number of states that a pattern may have: 10 MiB of 32 bytes each. -/
def stateLimit : Nat := 10 * 1024 * 1024 / 32

end Questionnaire.Pattern
