/-!
Glob patterns: `*` stands for any text, a backslash makes the next character stand for itself.

A pattern is read into tokens (`Glob.tokens`). Matching is greedy (`Glob.scan`): tokens and text are
gone through together, and where they do not fit, the star that was met last takes one more
character. The stars before it keep what they took.
-/
namespace StateCheck
set_option autoImplicit false

namespace Glob

inductive Token where
  | any
  | char (c : Char)
deriving DecidableEq, Repr

/-- The tokens of a pattern; a backslash at the end stands for itself. -/
def tokens : List Char → List Token
  | [] => []
  | ['\\'] => [.char '\\']
  | '\\' :: c :: rest => .char c :: tokens rest
  | c :: rest => (if c = '*' then .any else .char c) :: tokens rest

/-- What the first token does with the next character of the text. -/
inductive Move where
  | fit (rest : List Token)
  | star (rest : List Token)
  | stuck

def move (c : Char) : List Token → Move
  | .any :: rest => .star rest
  | .char d :: rest => if d = c then .fit rest else .stuck
  | [] => .stuck

/-- The star that was met last: the tokens after it, and the characters that were fitted to them
since, the latest first. -/
structure Star where
  after : List Token
  fitted : List Char

namespace Star

def push (s : Star) (c : Char) : Star := { s with fitted := c :: s.fitted }

/-- The text behind what the star has taken, given the part of it that is not fitted yet. -/
def textBehind (s : Star) (left : List Char) : List Char := s.fitted.reverse ++ left

end Star

/-- The length of the text that the last star can still take from; one more than the text while
there is no star. -/
def slack (star : Option Star) (text : List Char) : Nat :=
  match star with
  | some s => (s.textBehind text).length
  | none => text.length + 1

theorem move_eq_fit_iff {c : Char} {ts rest : List Token} :
    move c ts = .fit rest ↔ ts = .char c :: rest := by
  fun_cases move c ts with
  | case1 rest' => simp
  | case2 rest' => simp
  | case3 d rest' hne => simp [hne]
  | case4 => simp

theorem move_eq_star_iff {c : Char} {ts rest : List Token} :
    move c ts = .star rest ↔ ts = .any :: rest := by
  fun_cases move c ts with
  | case1 rest' => simp
  | case2 rest' => simp
  | case3 d rest' hne => simp
  | case4 => simp

theorem slack_push_le (star : Option Star) (c : Char) (cs : List Char) :
    slack (star.map (·.push c)) cs ≤ slack star (c :: cs) := by
  cases star with
  | none => exact Nat.le_succ _
  | some s => simp [slack, Star.textBehind, Star.push]

theorem length_le_slack (star : Option Star) (text : List Char) : text.length ≤ slack star text := by
  cases star with
  | none => exact Nat.le_succ _
  | some s => simp [slack, Star.textBehind]

/-- Whether the tokens fit the text, or fit it after the last star has taken more. -/
def scan (star : Option Star) (ts : List Token) (text : List Char) : Bool :=
  match text with
  | [] => ts.all (· == .any)
  | c :: cs =>
    match _ : move c ts with
    | .fit rest => scan (star.map (·.push c)) rest cs
    | .star rest => scan (some ⟨rest, []⟩) rest (c :: cs)
    | .stuck =>
      match star with
      | some s => scan (some ⟨s.after, []⟩) s.after (s.textBehind (c :: cs)).tail
      | none => false
termination_by (slack star text, ts.length)
decreasing_by
  · obtain rfl := move_eq_fit_iff.mp ‹move c ts = .fit rest›
    exact Prod.Lex.right' _ (slack_push_le star c cs) (Nat.lt_succ_self _)
  · obtain rfl := move_eq_star_iff.mp ‹move c ts = .star rest›
    exact Prod.Lex.right' _ (length_le_slack star (c :: cs)) (Nat.lt_succ_self _)
  · apply Prod.Lex.left
    simp [slack, Star.textBehind]

end Glob

def globMatches (pattern text : String) : Bool :=
  Glob.scan none (Glob.tokens pattern.toList) text.toList

end StateCheck
