namespace LineShell

/-!
# What can be wrong with a line

* `Redirection` — the four redirection operators;
* `LineError` — the reasons for which a line is no command line;
* `LineError.message` — the reason in words.
-/

/-- Which stream a redirection operator names a file for, and how. -/
inductive Redirection
  | input
  | output
  | append
  | error
  deriving DecidableEq, Repr

/-- A redirection operator as it is written. -/
def Redirection.spelling : Redirection → String
  | .input => "<"
  | .output => ">"
  | .append => ">>"
  | .error => "2>"

/-- Why a line is no command line. -/
inductive LineError
  | unclosedQuote
  | danglingEscape
  | unsupportedOperator (text : String)
  | missingFile (after : Redirection)
  | emptyCommand
  | misplacedBackground
  | lonelyBackground
  deriving DecidableEq, Repr

/-- Whether the line breaks off where the name of a file should stand. -/
def LineError.isMissingFile : LineError → Bool
  | .missingFile _ => true
  | _ => false

/-- The reason in words. -/
def LineError.message : LineError → String
  | .unclosedQuote => "no closing quotation"
  | .danglingEscape => "no escaped character"
  | .unsupportedOperator text => "unsupported operator '" ++ text ++ "'"
  | .missingFile op => "missing file after '" ++ op.spelling ++ "'"
  | .emptyCommand => "empty command in pipeline"
  | .misplacedBackground => "'&' is only allowed at the end of the line"
  | .lonelyBackground => "'&' without a command"

end LineShell
