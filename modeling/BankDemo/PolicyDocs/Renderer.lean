import BankDemo.Foundations.JsString
import BankDemo.Foundations.PageRows
import BankDemo.Foundations.Scanning
import Mathlib.Algebra.Order.Ring.Rat
import Mathlib.Tactic.NormNum

/-!
# The body of a policy

`PolicyRenderer.drawBody` reads a text in a small Markdown line by line and draws it: headings,
tables, lists and paragraphs. Its outer loop hands over to an inner one for each kind of block that
takes several lines, and the test that opens a block is not always the one that ends another.

The loops are one machine here (`step`), with a place for each, and what is drawn is kept as the
list of the blocks. Fonts and places on the page are left out.

For the texts of the blocks, `writeInline` cuts a text into spans in bold and spans that are not, and
`drawTable` cuts the lines of a table into cells and puts them in rows. The place where a table begins
depends on the fonts and is a parameter; the colours are left out. The places of the rows are exact
rationals, and within a table `text()` of PDFKit is taken to add no pages of its own: only the
`addPage()` of the source does.
-/

namespace BankDemo.PolicyDocs

open JsString PageRows Scanning

/-! ## Lines -/

/-- `md.replace(/\r\n/g, '\n')`. -/
def unixNewlines : List Char → List Char
  | '\r' :: '\n' :: rest => '\n' :: unixNewlines rest
  | c :: rest => c :: unixNewlines rest
  | [] => []

/-- `md.replace(/\r\n/g, '\n').split('\n')`. -/
def linesOf (md : String) : List String := split (String.ofList (unixNewlines md.toList)) '\n'

/-- `line.trim() === ''`. -/
def isBlank (line : String) : Bool := trim line = ""

/-- What `.` does not match. -/
def isLineTerminator (c : Char) : Bool := [10, 13, 0x2028, 0x2029].contains c.toNat

/-- `(.+)$`. -/
def restOfLine (l : List Char) : Option (List Char) :=
  if l ≠ [] && l.all fun c => !isLineTerminator c then some l else none

/-- `\s+(.+)$`: as much white space as there is, one character less at a time. -/
def spacesThenText : List Char → Option (List Char)
  | [] => none
  | c :: rest => if isSpace c then (spacesThenText rest).or (restOfLine rest) else none

/-- `^(#{1,3})` and what `next` matches behind it: three marks first, then less. -/
def afterMarks {α : Type} (next : List Char → Option α) (line : String) : Option (ℕ × α) :=
  [3, 2, 1].findSome? fun level =>
    if (List.replicate level '#').isPrefixOf line.toList then
      (next (line.toList.drop level)).map fun a => (level, a)
    else none

/-- `/^(#{1,3})\s+(.+)$/.exec(line)`: the level and the trimmed text of a heading. -/
def heading (line : String) : Option (ℕ × String) :=
  (afterMarks spacesThenText line).map fun h => (h.1, trim (String.ofList h.2))

/-- `/^(#{1,3})\s+/.test(line)`. -/
def opensHeading (line : String) : Bool :=
  (afterMarks (fun l => if l.head?.any isSpace then some () else none) line).isSome

/-- `.*\|\s*$`: the longest beginning first. -/
def closesRow : List Char → Bool
  | [] => false
  | c :: rest => (!isLineTerminator c && closesRow rest) || (c = '|' && rest.all isSpace)

/-- `/^\|.+\|\s*$/.test(line)`. -/
def isTableLine (line : String) : Bool :=
  match line.toList with
  | '|' :: c :: rest => !isLineTerminator c && closesRow rest
  | _ => false

/-- `/^[-*]\s+/.test(line)`. -/
def isBulletLine (line : String) : Bool :=
  match line.toList with
  | mark :: c :: _ => (mark = '-' || mark = '*') && isSpace c
  | _ => false

/-- `line.replace(/^[-*]\s+/, '')`. -/
def bulletText (line : String) : String :=
  if isBulletLine line then String.ofList (line.toList.tail.dropWhile isSpace) else line

/-! ## Blocks -/

/-- The blocks that take lines of a kind as long as there are some. -/
inductive RunKind
  | table
  | bullets
  | paragraph
  deriving DecidableEq

/-- The guard of the inner loop. -/
def RunKind.goesOn : RunKind → String → Bool
  | .table, line => isTableLine line
  | .bullets, line => isBulletLine line
  | .paragraph, line =>
    !isBlank line && !opensHeading line && !isBulletLine line && !isTableLine line

inductive Block
  | blank (line : String)
  | heading (line : String) (level : ℕ) (text : String)
  | run (kind : RunKind) (lines : List String)
  deriving DecidableEq

/-- The lines of the source that a block takes. -/
def Block.lines : Block → List String
  | .blank line => [line]
  | .heading line _ _ => [line]
  | .run _ lines => lines

/-- The texts that are drawn for a block: `drawTable` gets the rows as they are, every item of a
list is drawn for itself, and a paragraph is joined. -/
def Block.texts : Block → List String
  | .blank _ => []
  | .heading _ _ text => [text]
  | .run .table rows => rows
  | .run .bullets lines => lines.map bulletText
  | .run .paragraph lines => [" ".intercalate lines]

/-! ## The loops -/

/-- Which loop runs: the outer one, or an inner one with the lines it has gathered. -/
inductive Mode
  | outer
  | gathering (kind : RunKind) (gathered : List String)
  deriving DecidableEq

/-- The lines that are gathered and not drawn yet. -/
def Mode.lines : Mode → List String
  | .outer => []
  | .gathering _ gathered => gathered

structure Drawing where
  i : ℕ
  drawn : List Block
  mode : Mode
  deriving DecidableEq

/-- A round of the loop that runs, with the way into an inner loop and out of it as rounds of their
own; none when the outer loop is over. -/
def step (lines : List String) (s : Drawing) : Option Drawing :=
  match s.mode with
  | .outer =>
    match lines[s.i]? with
    | none => none
    | some line =>
      if isBlank line then
        some { s with i := s.i + 1, drawn := s.drawn ++ [.blank line] }
      else
        match heading line with
        | some (level, text) =>
          some { s with i := s.i + 1, drawn := s.drawn ++ [.heading line level text] }
        | none =>
          if isTableLine line then some { s with mode := .gathering .table [] }
          else if isBulletLine line then some { s with mode := .gathering .bullets [] }
          -- A paragraph takes its first line without a look at the guard of its loop.
          else some { s with i := s.i + 1, mode := .gathering .paragraph [line] }
  | .gathering kind gathered =>
    match lines[s.i]?.filter kind.goesOn with
    | some line => some { s with i := s.i + 1, mode := .gathering kind (gathered ++ [line]) }
    | none => some { s with drawn := s.drawn ++ [.run kind gathered], mode := .outer }

/-- `drawBody`, within a number of rounds: the blocks in the order in which they are drawn. -/
def drawBody (fuel : ℕ) (md : String) : Option (List Block) :=
  (loop (step (linesOf md)) fuel ⟨0, [], .outer⟩).map Drawing.drawn

/-- A mark and white space end a paragraph, and begin one. -/
example : (drawBody 50 "# Fees\r\n\n| a |\n|---|\n- one\n* two\nplain\n#\ntext\n## \nend").map
      (List.map Block.texts) =
    some [["Fees"], [], ["| a |", "|---|"], ["one", "two"], ["plain # text"], ["##  end"]] := by
  decide +kernel

/-! ## Spans -/

/-- `/\*\*[^*]+\*\*/` from the first character on: the text between the marks. -/
def boldAt (l : List Char) : Option (List Char) :=
  match l with
  | '*' :: '*' :: rest =>
    let inner := rest.takeWhile (· ≠ '*')
    if inner ≠ [] ∧ ['*', '*'].isPrefixOf (rest.dropWhile (· ≠ '*')) then some inner else none
  | _ => none

/-- A text between two marks. -/
def starred (inner : List Char) : List Char := '*' :: '*' :: inner ++ ['*', '*']

/-- `text.split(/(\*\*[^*]+\*\*)/g)`: the texts between the matches and the matches, in turn. The
next `skip` characters belong to a match that is found already, and `plain` was read since. -/
def boldSplit : ℕ → List Char → List Char → List (List Char)
  | _, plain, [] => [plain]
  | skip + 1, plain, _ :: rest => boldSplit skip plain rest
  | 0, plain, c :: rest =>
    match boldAt (c :: rest) with
    | some inner => plain :: starred inner :: boldSplit (inner.length + 3) [] rest
    | none => boldSplit 0 (plain ++ [c]) rest

/-- A text that is written in one go. -/
inductive Span
  | bold (text : List Char)
  | plain (text : List Char)
  deriving DecidableEq

/-- `/^\*\*[^*]+\*\*$/.test(p)`, and `p.slice(2, -2)` if so. -/
def spanOf (p : List Char) : Span :=
  match boldAt p with
  | some inner => if p = starred inner then .bold inner else .plain p
  | none => .plain p

/-- The parts of `writeInline`. -/
def inlineSpans (text : String) : List Span :=
  ((boldSplit 0 [] text.toList).filter fun p => 0 < p.length).map spanOf

def Span.text : Span → List Char
  | .bold text => text
  | .plain text => text

/-! ## Tables -/

/-- `r.replace(/^\|/, '')`. -/
def withoutFirstBar (l : List Char) : List Char := if l.head? = some '|' then l.tail else l

/-- `r.replace(/\|\s*$/, '')`: from the first bar that only white space follows. -/
def withoutLastBar : List Char → List Char
  | [] => []
  | c :: rest => if c = '|' && rest.all isSpace then [] else c :: withoutLastBar rest

/-- The cells of a line. -/
def cellsOf (line : String) : List String :=
  (split (String.ofList (withoutLastBar (withoutFirstBar line.toList))) '|').map trim

/-- `/^:?-+:?$/.test(c)`. -/
def isRule (cell : String) : Bool :=
  let begun := if cell.toList.head? = some ':' then cell.toList.tail else cell.toList
  let rest := begun.dropWhile (· = '-')
  begun.head? = some '-' && (rest = [] || rest = [':'])

/-- A row of a table, with what it is drawn on. -/
structure TableRow where
  header : Bool
  zebra : Bool
  cells : List String
  deriving DecidableEq

/-- `doc.page.margins.top`. -/
def topMargin : ℚ := 56

def rowH : ℚ := 22

/-- `doc.page.height - 90`, on paper of the size `LETTER`. -/
def bottom : ℚ := 792 - 90

/-- `ensureSpace`. -/
def ensureSpace (need : ℚ) (s : Slot ℚ) : Slot ℚ :=
  if bottom < s.y + need then ⟨s.page + 1, topMargin⟩ else s

/-- The loop over `bodyRows`. -/
def drawBodyRows : Slot ℚ → ℕ → List (List String) → List (Slot ℚ × TableRow)
  | _, _, [] => []
  | s, rIdx, row :: rest =>
    let s' : Slot ℚ := if bottom < s.y + rowH then ⟨s.page + 1, topMargin⟩ else s
    (s', ⟨false, rIdx % 2 = 1, row⟩) :: drawBodyRows ⟨s'.page, s'.y + rowH⟩ (rIdx + 1) rest

/-- The rows of a table below the names of the columns: the second line is left out if it is a
rule. -/
def bodyRows (cells : List (List String)) : List (List String) :=
  match cells with
  | _ :: second :: rest => if second.all isRule then rest else second :: rest
  | _ => []

/-- `drawTable`. Without a line there are no names of the columns, and the source fails. -/
def drawTable (s : Slot ℚ) (rows : List String) : Option (List (Slot ℚ × TableRow)) :=
  let cells := rows.map cellsOf
  match cells with
  | [] => none
  | headerRow :: _ =>
    let s' := ensureSpace (rowH * 2) s
    some ((s', ⟨true, false, headerRow⟩) ::
      drawBodyRows ⟨s'.page, s'.y + rowH⟩ 0 (bodyRows cells))

/-! ## The texts of the blocks -/

/-- The texts that are written for a block, with its table at `s`. -/
def written (s : Slot ℚ) : Block → Option (List (List Char))
  | .blank _ => some []
  | .heading _ _ text => some [text.toList]
  | .run .table rows => (drawTable s rows).map fun drawn =>
    drawn.flatMap fun d => d.2.cells.map String.toList
  | .run .bullets lines => some (lines.flatMap fun line =>
    (inlineSpans (bulletText line)).map Span.text)
  | .run .paragraph lines => some ((inlineSpans (" ".intercalate lines)).map Span.text)

example : inlineSpans "a **b** c**d**e" =
    [.plain ['a', ' '], .bold ['b'], .plain [' ', 'c'], .bold ['d'], .plain ['e']] := by
  decide +kernel

end BankDemo.PolicyDocs
