/-
# Regular expressions

The part of a backtracking matcher that line-oriented patterns need.  A matcher
goes through the ways to match in order of preference, an alternative before the
one after it, and a repetition with one more turn before it stops or the other way
round; the first way that leads to a match of the whole is the match.
-/

import MncsCommons.Data.Python

namespace MncsCommons.Data

/-- A pattern.  A class is a test of one character. -/
inductive Pattern where
  | empty
  | char (test : Char → Bool)
  | seq (first second : Pattern)
  | either (first second : Pattern)
  | star (isGreedy : Bool) (body : Pattern)
  | group (body : Pattern)
  | textStart
  | lineStart
  | lineEnd
  | wordEdge

/-- Where a matcher stands: what is before it, the nearest character first, what is
after it, and what the group holds. -/
structure Cursor where
  before : Text
  after : Text
  group : Text

/-- A match: where it starts and where it stops. -/
structure Match where
  start : Cursor
  stop : Cursor

namespace Pattern

/-! ## Derived patterns -/

def sequence (parts : List Pattern) : Pattern := parts.foldr seq empty

def oneOf (choices : List Pattern) : Pattern :=
  match choices with
  | [] => empty
  | [choice] => choice
  | choice :: choices => either choice (oneOf choices)

/-- `body?`. -/
def optional (body : Pattern) : Pattern := either body empty

/-- `body*`. -/
def many (body : Pattern) : Pattern := star true body

/-- `body+`. -/
def oneOrMore (body : Pattern) : Pattern := seq body (star true body)

/-- `body+?`. -/
def oneOrMoreLazy (body : Pattern) : Pattern := seq body (star false body)

/-- `body{0,most}`. -/
def atMost : Nat → Pattern → Pattern
  | 0, _ => empty
  | most + 1, body => optional (seq body (atMost most body))

/-- `body{least,least + more}`. -/
def between (least more : Nat) (body : Pattern) : Pattern :=
  sequence (List.replicate least body ++ [atMost more body])

/-- One of the characters. -/
def among (chars : String) : Pattern := char fun c => chars.toList.contains c

/-- None of the characters. -/
def noneOf (chars : String) : Pattern := char fun c => !chars.toList.contains c

def space : Pattern := char isSpace

/-- The text itself. -/
def literal (text : String) : Pattern := sequence (text.toList.map fun c => char (· = c))

/-- The lower-case letter that a character stands for when case is ignored. -/
def caseKey (c : Char) : Char :=
  match c.toNat with
  | 0x130 | 0x131 => 'i'
  | 0x17F => 's'
  | 0x212A => 'k'
  | _ => c.toLower

/-- The text itself when case is ignored. -/
def caseless (text : String) : Pattern :=
  sequence (text.toList.map fun c => char fun d => caseKey d = caseKey c)

/-! ## Matching -/

/-- The ways to repeat, at most as often as there are characters. -/
def turns (isGreedy : Bool) (step : Cursor → List Cursor) : Nat → Cursor → List Cursor
  | 0, cursor => [cursor]
  | fuel + 1, cursor =>
      let more := ((step cursor).filter fun next =>
        next.after.length < cursor.after.length).flatMap (turns isGreedy step fuel)
      if isGreedy then more ++ [cursor] else cursor :: more

variable (isWord : Char → Bool)

/-- Whether the cursor stands between a word and what is not one. -/
def atWordEdge (cursor : Cursor) : Bool :=
  cursor.before.head?.any isWord != cursor.after.head?.any isWord

/-- The ways to match from a cursor, in order of preference. -/
def ways : Pattern → Cursor → List Cursor
  | empty, cursor => [cursor]
  | char test, cursor =>
      match cursor.after with
      | [] => []
      | c :: after => if test c then [⟨c :: cursor.before, after, cursor.group⟩] else []
  | seq first second, cursor => (ways first cursor).flatMap (ways second)
  | either first second, cursor => ways first cursor ++ ways second cursor
  | star isGreedy body, cursor => turns isGreedy (ways body) cursor.after.length cursor
  | group body, cursor =>
      (ways body cursor).map fun next =>
        { next with
          group := (next.before.take (next.before.length - cursor.before.length)).reverse }
  | textStart, cursor => if cursor.before.isEmpty then [cursor] else []
  | lineStart, cursor => if cursor.before.head?.all (· = '\n') then [cursor] else []
  | lineEnd, cursor => if cursor.after.head?.all (· = '\n') then [cursor] else []
  | wordEdge, cursor => if atWordEdge isWord cursor then [cursor] else []

/-- The match that starts at a position. -/
def matchAt (pattern : Pattern) (before after : Text) : Option Match :=
  (ways isWord pattern ⟨before, after, []⟩).head?.map fun stop => ⟨⟨before, after, []⟩, stop⟩

/-- `re.search` from a position: the first position with a match. -/
def searchFrom (pattern : Pattern) : Text → Text → Option Match
  | before, [] => matchAt isWord pattern before []
  | before, c :: rest =>
      (matchAt isWord pattern before (c :: rest)).orElse fun _ =>
        searchFrom pattern (c :: before) rest

/-- `re.search`. -/
def search (pattern : Pattern) (text : Text) : Option Match := searchFrom isWord pattern [] text

/-- `re.finditer` of a pattern that matches no empty text. -/
def findFrom (pattern : Pattern) : Nat → Text → Text → List Match
  | 0, _, _ => []
  | fuel + 1, before, after =>
      match searchFrom isWord pattern before after with
      | none => []
      | some found => found :: findFrom pattern fuel found.stop.before found.stop.after

/-- `re.finditer`. -/
def findAll (pattern : Pattern) (text : Text) : List Match :=
  findFrom isWord pattern (text.length + 1) [] text

end Pattern

namespace Match

/-- `match.start()`. -/
def first (found : Match) : Nat := found.start.before.length

/-- `match.end()`. -/
def last (found : Match) : Nat := found.stop.before.length

/-- `match.group(0)`. -/
def whole (found : Match) : Text := (found.stop.before.take (found.last - found.first)).reverse

/-- `match.group(1)`. -/
def inner (found : Match) : Text := found.stop.group

end Match

/-- `text[first:last]`. -/
def Text.slice (text : Text) (first last : Nat) : Text := (text.take last).drop first

/-- `re.sub(pattern, "", text)`. -/
def Pattern.removeAll (isWord : Char → Bool) (pattern : Pattern) (text : Text) : Text :=
  let found := pattern.findAll isWord text
  let starts := found.map Match.first ++ [text.length]
  let stops := 0 :: found.map Match.last
  (stops.zip starts).flatMap fun ends => text.slice ends.1 ends.2

end MncsCommons.Data
