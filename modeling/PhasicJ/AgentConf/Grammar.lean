import PhasicJ.Peg.Expressions

/-! The grammar of the agent's options, `PjAgentConfLang.pest`, and its generated parser. -/

namespace PhasicJ.AgentConf

open Peg

inductive Rule where
  | lowerLatinAlpha
  | snakeCaseName
  | confOptionName
  | confOptionArg
  | confOptionQuotedArg
  | agentOption
  | agentOptionsListSep
  | agentOptionsList
  | whitespace
  -- The two built-in rules that the grammar names; `SOI` produces no node and is an expression.
  | asciiAlphanumeric
  | eoi
  deriving DecidableEq

namespace Rule

def type : Rule → RuleType
  | lowerLatinAlpha | snakeCaseName | confOptionQuotedArg | agentOptionsListSep => .silent
  | whitespace | asciiAlphanumeric => .silent
  | confOptionName | confOptionArg => .atomic
  | agentOption | agentOptionsList | eoi => .normal

def expr : Rule → Expr Rule
  | lowerLatinAlpha => .range 'a' 'z'
  | snakeCaseName => .repOnce (.choice (.ident lowerLatinAlpha) (.str ['_']))
  | confOptionName => .ident snakeCaseName
  | confOptionArg =>
    .rep (.choice (.ident asciiAlphanumeric) (.choice (.str ['.']) (.choice (.str [' '])
      (.choice (.str ['/']) (.choice (.str ['-']) (.str ['_']))))))
  | confOptionQuotedArg => .seq (.str ['"']) (.seq (.ident confOptionArg) (.str ['"']))
  | agentOption =>
    .seq (.ident confOptionName)
      (.opt (.seq (.str ['=']) (.choice (.ident confOptionQuotedArg) (.ident confOptionArg))))
  | agentOptionsListSep => .str [',']
  | agentOptionsList =>
    .seq .startOfInput
      (.seq (.opt (.seq (.ident agentOption)
          (.rep (.seq (.ident agentOptionsListSep) (.ident agentOption)))))
        (.ident eoi))
  | whitespace => .str [' ']
  | asciiAlphanumeric => .choice (.range 'a' 'z') (.choice (.range 'A' 'Z') (.range '0' '9'))
  | eoi => .endOfInput

end Rule

def grammar : Grammar Rule where
  type := Rule.type
  expr := Rule.expr
  whitespace := .whitespace

/-- No chain of rules of this grammar is longer. -/
def ruleDepth : ℕ := 6

def parseAgentOptionsList (s : List Char) : Outcome (List (Pair Rule)) :=
  grammar.parse ruleDepth .agentOptionsList s

def isSpace (c : Char) : Bool := c == ' '

def isNameChar (c : Char) : Bool := ('a' ≤ c && c ≤ 'z') || c == '_'

def isArgChar (c : Char) : Bool :=
  (('a' ≤ c && c ≤ 'z') || (('A' ≤ c && c ≤ 'Z') || ('0' ≤ c && c ≤ '9'))) ||
    (c == '.' || (c == ' ' || (c == '/' || (c == '-' || c == '_'))))

end PhasicJ.AgentConf
