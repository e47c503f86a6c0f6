import TurtleCurves.Grammar.Word

namespace TurtleCurves

/-!
# Turtle symbols

`Symbol.ofChar` says what the turtle takes a character for.
-/

/-- What a character asks of the turtle. -/
inductive Symbol where
  /-- Draw one stroke. -/
  | letter (c : Char)
  /-- Turn by the angle. -/
  | turnLeft
  /-- Turn back by the angle. -/
  | turnRight
  /-- Keep the pose for later. -/
  | push
  /-- Go back to the pose kept last. -/
  | pop
  /-- Nothing. -/
  | other (c : Char)
  deriving DecidableEq, Repr

/-- Capitals draw, `+` and `-` turn, brackets keep and restore, and the rest is ignored. -/
def Symbol.ofChar (c : Char) : Symbol :=
  if Word.isStroke c then .letter c
  else if c = '+' then .turnLeft
  else if c = '-' then .turnRight
  else if c = '[' then .push
  else if c = ']' then .pop
  else .other c

end TurtleCurves
