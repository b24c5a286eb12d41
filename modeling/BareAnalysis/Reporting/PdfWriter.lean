import BareAnalysis.Machinery.Json
import BareAnalysis.Machinery.PdfSyntax
import BareAnalysis.Machinery.Replace
import BareAnalysis.Machinery.Text

/-!
# Reporting/PdfWriter — the writer of the release record

    text wrap rule box   ──▸   pages of operators   ──build──▸   fonts  contents  pages  tree  info  catalog
    need space                                                   │ objects in order │ xref │ trailer

`PdfWriter` of `reporting/pdf.py`.  Floats are what the interpreter makes of them: the writer adds,
compares and prints them.
-/

namespace BareAnalysis.PdfWriter

/-! ## Numbers -/

/-- The characters of a text. -/
def chars (text : String) : List Char := text.toList

/-- The characters of a float that is printed with a fixed number of places. -/
def floatChars : List Char := chars "0123456789.-infa"

/-- Floats. -/
structure Floats where
  F : Type
  lit : ℚ → F
  ofNat : ℕ → F
  add : F → F → F
  sub : F → F → F
  mul : F → F → F
  /-- `a < b`. -/
  lt : F → F → Bool
  isZero : F → Bool
  /-- `f"{x:.2f}"`, with the number of places. -/
  fixed : ℕ → F → List Char
  fixed_ne_nil : ∀ places x, fixed places x ≠ []
  fixed_chars : ∀ places x, ∀ c ∈ fixed places x, c ∈ floatChars

/-- `zlib`. -/
structure Zlib where
  /-- `zlib.compress(data, 9)`. -/
  compress : List UInt8 → List UInt8
  decompress : List UInt8 → Option (List UInt8)
  decompress_compress : ∀ data, decompress (compress data) = some data

/-! ## Texts -/

/-- `_escape`. -/
def escape (text : List Char) : List Char :=
  replace [')'] ['\\', ')'] (replace ['('] ['\\', '('] (replace ['\\'] ['\\', '\\'] text))

/-- The typographic characters that have a stand-in. -/
def swaps : List (Char × String) :=
  [('—', "-"), ('–', "-"), ('‘', "'"), ('’', "'"), ('“', "\""), ('”', "\""), ('…', "..."),
    ('→', "->"), ('·', "-"), ('•', "-"), ('\u00a0', " ")]

/-- `text.encode("latin-1", "replace").decode("latin-1")`. -/
def replaceForeign (text : List Char) : List Char :=
  text.map fun c => if c.toNat < 256 then c else '?'

/-- `_latin1`. -/
def latin1 (text : List Char) : List Char :=
  replaceForeign (swaps.foldl (fun text swap => replace [swap.1] (chars swap.2) text) text)

/-- `text.encode("latin-1", "replace")`. -/
def encodeReplace (text : List Char) : List UInt8 :=
  text.map fun c => if c.toNat < 256 then UInt8.ofNat c.toNat else 63

/-- `text.encode("latin-1")`. -/
def encodeStrict (text : List Char) : Except PyError (List UInt8) :=
  if text.all fun c => c.toNat < 256 then .ok (encodeReplace text)
  else .error (.valueError "'latin-1' codec can't encode characters: ordinal not in range(256)")

/-- `str(n)`. -/
def str (n : ℕ) : List Char := Nat.toDigits 10 n

/-- `text.split()`. -/
def splitBlanks (text : List Char) : List (List Char) :=
  (text.splitOnP isSpace).filter fun word => word ≠ []

/-! ## Operators -/

/-- `FONT_REGULAR`, `FONT_BOLD`, `FONT_MONO`. -/
inductive Font
  | regular
  | bold
  | mono
  deriving DecidableEq

/-- Its name. -/
def Font.name : Font → String
  | .regular => "Helvetica"
  | .bold => "Helvetica-Bold"
  | .mono => "Courier"

section Writer

variable (num : Floats)

/-- A colour. -/
structure Colour where
  r : num.F
  g : num.F
  b : num.F

/-- One of a page's `ops`, before it is printed. -/
inductive Drawn
  | text (font : Font) (size : num.F) (colour : Colour num) (x y : num.F) (value : List Char)
  | rule (colour : Colour num) (width y : num.F)
  | box (colour : Colour num) (x y width height : num.F)

/-- `_Page`. -/
structure Page where
  ops : List (Drawn num) := []
  y : num.F

/-- `self.pages`: the last page, and those before it. -/
structure Writer where
  earlier : List (Page num) := []
  page : Page num

variable {num}

def Writer.pages (w : Writer num) : List (Page num) := w.earlier ++ [w.page]

variable (num)

def pageWidth : num.F := num.lit (59528 / 100)
def pageHeight : num.F := num.lit (84189 / 100)
def margin : num.F := num.lit 48
def contentWidth : num.F := num.sub (pageWidth num) (num.mul (num.ofNat 2) (margin num))

/-- A page without operators. -/
def blankPage : Page num := { y := num.sub (pageHeight num) (margin num) }

/-- `PdfWriter()`. -/
def newWriter : Writer num := { page := blankPage num }

/-- `_width`. -/
def textWidth (text : List Char) (size : num.F) : num.F :=
  let narrow := (text.filter fun c => (chars "iljtfIr .,:;'|!()[]").contains c).length
  let wide := (text.filter fun c => (chars "mwMW@").contains c).length
  let other := text.length - narrow - wide
  num.mul (num.add (num.add (num.mul (num.ofNat narrow) (num.lit (28 / 100)))
    (num.mul (num.ofNat wide) (num.lit (85 / 100))))
    (num.mul (num.ofNat other) (num.lit (52 / 100)))) size

variable {num}

namespace Writer

/-- `_new_page`. -/
def newPage (w : Writer num) : Writer num := { earlier := w.pages, page := blankPage num }

/-- `space`. -/
def space (w : Writer num) (amount : num.F) : Writer num :=
  { w with page := { w.page with y := num.sub w.page.y amount } }

/-- `need`. -/
def need (w : Writer num) (amount : num.F) : Writer num :=
  if num.lt (num.sub w.page.y amount) (num.add (margin num) (num.ofNat 28)) then w.newPage else w

/-- `self.page.ops.append(…)`. -/
def draw (w : Writer num) (op : Drawn num) : Writer num :=
  { w with page := { w.page with ops := w.page.ops ++ [op] } }

/-- `text`. -/
def text (w : Writer num) (value : List Char) (size : num.F) (bold mono : Bool)
    (colour : Colour num) (x leading : num.F) : Writer num :=
  let font := if mono then .mono else if bold then .bold else .regular
  let w := w.draw (.text font size colour x w.page.y value)
  if num.isZero leading then w else w.space leading

/-- `rule`. -/
def rule (w : Writer num) (colour : Colour num) (width : num.F) : Writer num :=
  w.draw (.rule colour width w.page.y)

/-- `box`. -/
def box (w : Writer num) (x width height : num.F) (colour : Colour num) : Writer num :=
  w.draw (.box colour x (num.add (num.sub w.page.y height) (num.ofNat 2)) width height)

/-- One turn of the loop of `wrap`. -/
def wrapWord (size : num.F) (colour : Colour num) (width leading x : num.F)
    (so : Writer num × List Char) (word : List Char) : Writer num × List Char :=
  let candidate := strip isSpace (so.2 ++ ' ' :: word)
  if num.lt width (textWidth num candidate size) ∧ so.2 ≠ [] then
    (so.1.text so.2 size false false colour x leading, word)
  else (so.1, candidate)

/-- `wrap`. -/
def wrap (w : Writer num) (value : List Char) (size : num.F) (colour : Colour num)
    (width leading x : num.F) : Writer num :=
  let (w, line) := (splitBlanks (latin1 value)).foldl (wrapWord size colour width leading x) (w, [])
  if line ≠ [] then w.text line size false false colour x leading else w

end Writer

variable (num)

/-- The operations, with all their arguments. -/
inductive Op
  | text (value : List Char) (size : num.F) (bold mono : Bool) (colour : Colour num)
      (x leading : num.F)
  | wrap (value : List Char) (size : num.F) (colour : Colour num) (width leading x : num.F)
  | rule (colour : Colour num) (width : num.F)
  | box (x width height : num.F) (colour : Colour num)
  | need (amount : num.F)
  | space (amount : num.F)

variable {num}

def Writer.apply (w : Writer num) : Op num → Writer num
  | .text value size bold mono colour x leading => w.text value size bold mono colour x leading
  | .wrap value size colour width leading x => w.wrap value size colour width leading x
  | .rule colour width => w.rule colour width
  | .box x width height colour => w.box x width height colour
  | .need amount => w.need amount
  | .space amount => w.space amount

/-- The writer after a sequence of operations. -/
def written (ops : List (Op num)) : Writer num := ops.foldl Writer.apply (newWriter num)

/-! ## Printing -/

/-- `f"{x:.2f}"`… -/
def two (x : num.F) : List Char := num.fixed 2 x

/-- …and `f"{r:.3f} {g:.3f} {b:.3f}"`. -/
def Colour.print (c : Colour num) : List Char :=
  num.fixed 3 c.r ++ chars " " ++ num.fixed 3 c.g ++ chars " " ++ num.fixed 3 c.b

/-- An operator, as it is appended to `ops`. -/
def Drawn.print : Drawn num → List Char
  | .text font size colour x y value =>
    chars "BT /" ++ chars font.name ++ chars " " ++ two size ++ chars " Tf " ++ colour.print
      ++ chars " rg 1 0 0 1 " ++ two x ++ chars " " ++ two y ++ chars " Tm ("
      ++ escape (latin1 value) ++ chars ") Tj ET"
  | .rule colour width y =>
    colour.print ++ chars " RG " ++ two width ++ chars " w " ++ two (margin num) ++ chars " "
      ++ two y ++ chars " m " ++ two (num.sub (pageWidth num) (margin num)) ++ chars " "
      ++ two y ++ chars " l S"
  | .box colour x y width height =>
    colour.print ++ chars " rg " ++ two x ++ chars " " ++ two y ++ chars " " ++ two width
      ++ chars " " ++ two height ++ chars " re f"

/-- `"\n".join(page.ops).encode("latin-1", "replace")`. -/
def Page.stream (page : Page num) : List UInt8 :=
  encodeReplace (['\n'].intercalate (page.ops.map Drawn.print))

/-! ## Building -/

/-- `add`, for one body after the other: their numbers, and the objects. -/
def addAll (objects bodies : List (List UInt8)) : List ℕ × List (List UInt8) :=
  bodies.foldl (fun so body => (so.1 ++ [so.2.length + 1], so.2 ++ [body])) ([], objects)

/-- A font. -/
def fontBody (font : Font) : List Char :=
  chars "<< /Type /Font /Subtype /Type1 /BaseFont /" ++ chars font.name
    ++ chars " /Encoding /WinAnsiEncoding >>"

/-- A content stream. -/
def contentBody (packed : List UInt8) : List UInt8 :=
  Pdf.octets "<< /Length " ++ encodeReplace (str packed.length)
    ++ Pdf.octets " /Filter /FlateDecode >>\nstream\n" ++ packed ++ Pdf.octets "\nendstream"

/-- `resources`. -/
def resources (fontIds : List (Font × ℕ)) : List Char :=
  chars "/Font << "
    ++ [' '].intercalate (fontIds.map fun font =>
      chars "/" ++ chars font.1.name ++ chars " " ++ str font.2 ++ chars " 0 R")
    ++ chars " >>"

variable (num) in
/-- A page. -/
def pageBody (pagesId : ℕ) (fontIds : List (Font × ℕ)) (contentId : ℕ) : List Char :=
  chars "<< /Type /Page /Parent " ++ str pagesId ++ chars " 0 R /MediaBox [0 0 "
    ++ two (pageWidth num) ++ chars " " ++ two (pageHeight num) ++ chars "] /Resources << "
    ++ resources fontIds ++ chars " >> /Contents " ++ str contentId ++ chars " 0 R >>"

/-- The page tree. -/
def pagesBody (pageIds : List ℕ) : List Char :=
  chars "<< /Type /Pages /Count " ++ str pageIds.length ++ chars " /Kids ["
    ++ [' '].intercalate (pageIds.map fun id => str id ++ chars " 0 R") ++ chars "] >>"

/-- The information. -/
def infoBody (title : List Char) : List Char :=
  chars "<< /Title (" ++ escape (latin1 title) ++ chars ") /Producer (BARE) >>"

/-- The catalog. -/
def catalogBody (pagesId : ℕ) : List Char :=
  chars "<< /Type /Catalog /Pages " ++ str pagesId ++ chars " 0 R >>"

/-- The objects of a document, and the numbers of its catalog and its information. -/
structure Objects where
  bodies : List (List UInt8)
  infoId : ℕ
  catalogId : ℕ

/-- `build`, up to the objects. -/
def buildObjects (zlib : Zlib) (w : Writer num) (title : List Char) : Except PyError Objects := do
  let fonts := [Font.regular, .bold, .mono]
  let (fontIds, objects) := addAll [] (← fonts.mapM fun font => encodeStrict (fontBody font))
  let fontIds := fonts.zip fontIds
  let (contentIds, objects) := addAll objects
    (w.pages.map fun page => contentBody (zlib.compress page.stream))
  let pagesId := objects.length + w.pages.length + 1
  let (pageIds, objects) := addAll objects
    (← contentIds.mapM fun contentId => encodeStrict (pageBody num pagesId fontIds contentId))
  let objects := objects ++ [← encodeStrict (pagesBody pageIds)]
  let objects := objects ++ [← encodeStrict (infoBody title)]
  let infoId := objects.length
  let objects := objects ++ [← encodeStrict (catalogBody pagesId)]
  return { bodies := objects, infoId, catalogId := objects.length }

/-- One turn of the loop that writes the objects: the bytes, and the offsets. -/
def writeObject (so : List UInt8 × List ℕ) (object : List UInt8 × ℕ) : List UInt8 × List ℕ :=
  (so.1 ++ encodeReplace (str object.2) ++ Pdf.octets " 0 obj\n" ++ object.1
    ++ Pdf.octets "\nendobj\n", so.2 ++ [so.1.length])

/-- `f"{offset:010d} 00000 n \n"`. -/
def xrefEntry (offset : ℕ) : List UInt8 :=
  encodeReplace (List.replicate (10 - (str offset).length) '0' ++ str offset)
    ++ Pdf.octets " 00000 n \n"

/-- The table of the offsets. -/
def xrefTable (offsets : List ℕ) : List UInt8 :=
  Pdf.octets "xref\n0 " ++ encodeReplace (str (offsets.length + 1)) ++ Pdf.octets "\n"
    ++ Pdf.octets "0000000000 65535 f \n" ++ offsets.flatMap xrefEntry

/-- The trailer. -/
def trailer (objects : Objects) (xrefAt : ℕ) : List UInt8 :=
  Pdf.octets "trailer\n<< /Size " ++ encodeReplace (str (objects.bodies.length + 1))
    ++ Pdf.octets " /Root " ++ encodeReplace (str objects.catalogId) ++ Pdf.octets " 0 R /Info "
    ++ encodeReplace (str objects.infoId) ++ Pdf.octets " 0 R >>\nstartxref\n"
    ++ encodeReplace (str xrefAt) ++ Pdf.octets "\n%%EOF\n"

/-- `build`, from the objects on. -/
def serialize (objects : Objects) : List UInt8 :=
  let (out, offsets) := (objects.bodies.zipIdx 1).foldl writeObject (Pdf.octets "%PDF-1.4\n", [])
  out ++ xrefTable offsets ++ trailer objects out.length

/-- `build`. -/
def build (zlib : Zlib) (w : Writer num) (title : List Char) : Except PyError (List UInt8) :=
  (buildObjects zlib w title).map serialize

end Writer

end BareAnalysis.PdfWriter
