import Literate.Text.Basic

namespace Literate

inductive Style (π : Type)
  | title1
  | title2
  | title3
  | prose
  | markup
  | prompt
  | code
  | quoteDelimiter
  | quoteSingle
  | quoteDouble
  | embedded (payload : π)
deriving DecidableEq, Repr

namespace Style

variable {π : Type}

def ofIndex : Option Int → Style π
  | some 0 => title1
  | some 1 => title2
  | some 2 => title3
  | _ => prose

def payload? : Style π → Option π
  | embedded payload => some payload
  | _ => none

def name : Style π → String
  | title1 => "title-1"
  | title2 => "title-2"
  | title3 => "title-3"
  | prose => "prose"
  | markup => "markup"
  | prompt => "doctest-prompt"
  | code => "doctest-code"
  | quoteDelimiter => "quote-delimiter"
  | quoteSingle => "quote-single"
  | quoteDouble => "quote-double"
  | embedded _ => "embedded"

end Style

/-- A ruled stretch has a thin line below it, in place of a hidden underline. -/
structure Directive (π : Type) where
  start : Nat
  stop : Nat
  style : Style π
  hidden : Bool
  ruled : Bool
deriving DecidableEq, Repr

namespace Directive

variable {π : Type}

def span (d : Directive π) : Span := ⟨d.start, d.stop⟩

def length (d : Directive π) : Int := d.span.length

def plain (start stop : Nat) (style : Style π) : Directive π := ⟨start, stop, style, false, false⟩

end Directive

end Literate
