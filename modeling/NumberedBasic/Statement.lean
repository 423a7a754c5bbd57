import NumberedBasic.Expr

/-!
# Statements

A line is stored as a flat sequence of statements. Most of them are commands, which stand for
themselves. What is left of `IF` and `ELSE` are jumps within the line: `Statement.branch` goes on
to its target when its predicate is false, and `Statement.skip`, which ends the branch that was
taken, always does.
-/

set_option autoImplicit false

namespace NumberedBasic

/-- An item of a `DATA` list, with or without quotes. -/
inductive Datum where
  | quoted (text : String)
  | unquoted (text : String)
  deriving DecidableEq, Repr

/-- An item of a `PRINT` list. -/
inductive PrintItem where
  | value (value : Expr)
  | comma (column : Span)
  | semicolon (column : Span)

/-- The commands of the language. -/
inductive Command where
  | clear (column : Span)
  | data (column : Span) (items : List Datum)
  | define (column : Span) (ident : Ident) (parameters : List Ident) (body : Expr)
  | dimension (column : Span) (arrays : List Element)
  | finish (column : Span)
  | loop (column : Span) (ident : Ident) (first last : Expr) (step : Option Expr)
  | gosub (column : Span) (line : LineNumber)
  | goto (column : Span) (line : LineNumber)
  | input (column : Span) (prompt : String) (targets : List Target)
  | assign (column : Span) (target : Target) (value : Expr)
  | next (column : Span) (ident : Option Ident)
  | onGoto (column : Span) (selector : Expr) (lines : List LineNumber)
  | onGosub (column : Span) (selector : Expr) (lines : List LineNumber)
  | print (column : Span) (items : List PrintItem)
  | read (column : Span) (targets : List Target)
  | remark (column : Span)
  | restore (column : Span) (line : Option LineNumber)
  | returnBack (column : Span)
  | stop (column : Span)

/-- An entry of the flat sequence a line is stored as. -/
inductive Statement where
  | run (command : Command)
  | branch (column : Span) (predicate : Expr) (target : Nat)
  | skip (column : Span) (target : Nat)

end NumberedBasic
