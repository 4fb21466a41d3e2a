import LuaLiterals.Dialect
import LuaLiterals.Literal
import LuaLiterals.Offer

/-!
The automaton that recognizes one token. Its phases say what has been read of the token so far;
a step looks at one character and either skips it (space in front of the token), consumes it, or
halts in front of it. At the end of the input there is no character, so a phase can only halt
there. A step may also mark the place it is at: a token ends at the last mark, which lets the
automaton read on in a long literal to see whether a bracket closes it, and end the token before
that bracket all the same.

Comments and literals share the phases for long brackets. They differ in what becomes of a
bracket that is not one after all, and in what the closing bracket means.
-/

set_option autoImplicit false
set_option relaxedAutoImplicit false

namespace LuaLiterals

/-- A recognized token. Of an opening delimiter it says which literal is open from there on. -/
inductive Found
  | comment
  | opening (literal : Literal)
  | content
  | closing
deriving DecidableEq, Repr

namespace Found

def kind : Found → Kind
  | comment => .comment
  | opening _ => .opening
  | content => .content
  | closing => .closing

/-- The open literal behind the token, given the one in front of it. -/
def openedAfter (found : Found) (opened : Option Literal) : Option Literal :=
  match found with
  | opening literal => some literal
  | closing => none
  | comment | content => opened

end Found

/-- What the automaton is asked to look for. -/
structure Demand where
  dialect : Dialect
  offer : Offer
deriving DecidableEq, Repr

/-- How a run ends: whether the place it has read up to is marked, and what was found. -/
structure Ending where
  marked : Bool
  found : Option Found
deriving DecidableEq, Repr

namespace Ending

/-- There is no token. -/
def declined : Ending := ⟨false, none⟩

/-- A comment that ends at the place read up to. -/
def comment : Ending := ⟨true, some .comment⟩

end Ending

/-- What a long bracket delimits. -/
inductive Purpose
  | comment
  | string
deriving DecidableEq, Repr

inductive Phase
  /-- In front of a comment or an opening delimiter. -/
  | gap
  /-- Behind the first dash of a comment. -/
  | dash
  /-- Behind both dashes of a comment, or blank space after them. -/
  | dashes
  /-- In an opening long bracket, behind `[` and `count` times `=`. -/
  | bracket (purpose : Purpose) (count : Nat)
  /-- In a comment that runs to the end of its line. -/
  | line
  /-- Between long brackets; `content` tells whether anything belongs to the text so far. -/
  | body (purpose : Purpose) (level : Level) (content : Bool)
  /-- Behind `]` and some `=`, with `left` more of them to come before a `]` that closes. -/
  | closer (purpose : Purpose) (level : Level) (left : Nat) (content : Bool)
  /-- Between quotes. -/
  | quoted (quote : Quote) (content : Bool)
  /-- Between quotes, behind a backslash. -/
  | escape (quote : Quote)
  /-- Nothing more is to be read. -/
  | settled (ending : Ending)
deriving DecidableEq, Repr

/-- What the automaton does with the character in front of it. -/
inductive Step
  | skip (next : Phase)
  /-- Consumes the character, marking the place in front of it if `marked`. -/
  | consume (marked : Bool) (next : Phase)
  | halt (ending : Ending)
deriving DecidableEq, Repr

namespace Phase

/-- The end of a token of content, if content is offered. -/
def contentEnding (offer : Offer) (marked : Bool) : Ending :=
  ⟨marked, if offer.content then some .content else none⟩

/-- A short literal breaks off at the end of a line or of the input. -/
def brokenEnding (offer : Offer) (content : Bool) : Ending :=
  if content && offer.content then ⟨true, some .content⟩ else .declined

/-- A closing long bracket has been read. It is a token of its own only if nothing stands between
the brackets; otherwise the content in front of it, which is already marked, comes first. -/
def closedEnding (offer : Offer) : Purpose → Bool → Ending
  | .comment, _ => .comment
  | .string, true => contentEnding offer false
  | .string, false => if offer.closing then ⟨true, some .closing⟩ else .declined

/-- The phase behind a complete opening long bracket. -/
def openedBracket (purpose : Purpose) (level : Level) : Phase :=
  match purpose with
  | .comment => .body .comment level false
  | .string => .settled ⟨false, some (.opening (.long level))⟩

def gapStep (demand : Demand) (c : Char) : Step :=
  if demand.dialect.isSpace c then .skip .gap
  else if c = '-' && demand.offer.comment then .consume false .dash
  else if c = '[' && demand.offer.opening then .consume false (.bracket .string 0)
  else match Quote.ofChar? c, demand.offer.opening with
    | some quote, true => .consume false (.settled ⟨false, some (.opening (.short quote))⟩)
    | _, _ => .halt .declined

def lineStep (c : Char) : Step :=
  if c = '\n' then .halt .comment else .consume false .line

def dashesStep (demand : Demand) (c : Char) : Step :=
  if demand.dialect.isCommentBlank c then .consume false .dashes
  else if c = '[' then .consume false (.bracket .comment 0)
  else lineStep c

/-- A bracket of a comment that turns out to be none is part of the line. -/
def bracketStep (purpose : Purpose) (count : Nat) (c : Char) : Step :=
  if c = '=' then .consume false (.bracket purpose (count + 1))
  else if c = '[' then .consume false (openedBracket purpose (Level.ofCount count))
  else match purpose with
    | .comment => lineStep c
    | .string => .halt .declined

/-- Every `]` may begin the closing bracket, so the place in front of it is marked. -/
def bodyStep (purpose : Purpose) (level : Level) (content : Bool) (c : Char) : Step :=
  if c = ']' then .consume true (.closer purpose level level.toNat content)
  else .consume false (.body purpose level true)

/-- What does not complete the closing bracket belongs to the text, with the character that
shows it: that one may begin another closing bracket. -/
def closerStep (offer : Offer) (purpose : Purpose) (level : Level) (left : Nat) (content : Bool)
    (c : Char) : Step :=
  if c = '=' && 0 < left then .consume false (.closer purpose level (left - 1) content)
  else if c = ']' && left = 0 then .consume false (.settled (closedEnding offer purpose content))
  else bodyStep purpose level true c

def quotedStep (offer : Offer) (quote : Quote) (content : Bool) (c : Char) : Step :=
  if c = '\n' then .halt (brokenEnding offer content)
  else if c = quote.char then
    if content then .halt (contentEnding offer true)
    else if offer.closing then .consume false (.settled ⟨true, some .closing⟩)
    else .halt .declined
  else if c = '\\' then .consume false (.escape quote)
  else .consume false (.quoted quote true)

def escapeStep (offer : Offer) (quote : Quote) (c : Char) : Step :=
  if c = '\n' then .halt (brokenEnding offer true) else .consume false (.quoted quote true)

def step (demand : Demand) : Phase → Char → Step
  | gap, c => gapStep demand c
  | dash, c => if c = '-' then .consume false .dashes else .halt .declined
  | dashes, c => dashesStep demand c
  | bracket purpose count, c => bracketStep purpose count c
  | line, c => lineStep c
  | body purpose level content, c => bodyStep purpose level content c
  | closer purpose level left content, c => closerStep demand.offer purpose level left content c
  | quoted quote content, c => quotedStep demand.offer quote content c
  | escape quote, c => escapeStep demand.offer quote c
  | settled ending, _ => .halt ending

/-- How a phase ends where the input does. A comment ends there, a literal is not finished. -/
def ending (offer : Offer) : Phase → Ending
  | gap | dash => .declined
  | dashes | line => .comment
  | bracket purpose _ | body purpose _ _ | closer purpose _ _ _ =>
    match purpose with
    | .comment => .comment
    | .string => .declined
  | quoted _ content => brokenEnding offer content
  | escape _ => brokenEnding offer true
  | settled ending => ending

end Phase

end LuaLiterals
