import OpenEverest.Framework.SplitText

/-!
# Rendered Helm templates

The text that Helm renders is split at its separators, a regular expression with the space
around them. Pieces without content are dropped, and a filter asks for each piece which file
it comes from: the one that was named last.
-/

namespace OpenEverest.Cli.Helm

open Framework

abbrev Text := List Char

/-- `unicode.IsSpace`. -/
def isSpace (c : Char) : Bool :=
  decide (9 ≤ c.toNat ∧ c.toNat ≤ 13 ∨ 0x2000 ≤ c.toNat ∧ c.toNat ≤ 0x200A ∨
    c.toNat ∈ [0x20, 0x85, 0xA0, 0x1680, 0x2028, 0x2029, 0x202F, 0x205F, 0x3000])

/-- `\s` of a regular expression. -/
def isWs (c : Char) : Bool := c = ' ' || c = '\t' || c = '\n' || c = '\x0c' || c = '\r'

/-- `strings.TrimSpace`. -/
def trimSpace (s : Text) : Text := (s.dropWhile isSpace).rdropWhile isSpace

def hyphens : Text := ['-', '-', '-']

/-- The length of a match of `(?:^|\s*\n)---\s*` that begins here. -/
def sepLength (start : Bool) (s : Text) : Option Nat :=
  if start = true ∧ hyphens <+: s then some (3 + ((s.drop 3).takeWhile isWs).length)
  else if (s.takeWhile isWs).getLast? = some '\n' ∧ hyphens <+: s.dropWhile isWs then
    some ((s.takeWhile isWs).length + 3 + (((s.dropWhile isWs).drop 3).takeWhile isWs).length)
  else none

/-- `sep.Split(y, -1)`: only the first match can be at the start of the text. -/
def splitSeparators (y : Text) : List Text :=
  match sepLength true y with
  | some n => [] :: splitScan (sepLength false) 0 (y.drop n)
  | none => splitScan (sepLength false) 0 y

def lines (y : Text) : List Text := splitScan (markerAt ['\n']) 0 y

/-- A line that the buffer of `bufio.Scanner` does not hold. -/
def tooLong (line : Text) : Bool :=
  decide (64 * 1024 ≤ line.foldl (fun size c => size + c.utf8Size) 0)

/-- Neither blank nor a comment. -/
def significant (line : Text) : Bool :=
  decide (trimSpace line ≠ [] ∧ (trimSpace line).head? ≠ some '#')

/-- The scan ends at the first line with content; an error of the scanner counts as content. -/
def isYamlEmpty (y : Text) : Bool := (lines y).all fun line => !tooLong line && !significant line

def splitYaml (y : Text) : List Text :=
  ((splitSeparators (trimSpace y)).filter fun d => !isYamlEmpty d).map trimSpace

def sourceMark : Text := "# Source: ".toList

/-- `[^/]+/(.+)`: the path behind the first slash, up to the end of its line. -/
def sourceAt (s : Text) : Option Text :=
  let path := ((s.dropWhile (· ≠ '/')).drop 1).takeWhile (· ≠ '\n')
  if s.takeWhile (· ≠ '/') ≠ [] ∧ path ≠ [] then some path else none

/-- The group of the first match of `# Source: [^/]+/(.+)`. -/
def findSource : Text → Option Text
  | [] => none
  | c :: s =>
    if sourceMark <+: c :: s ∧ (sourceAt ((c :: s).drop sourceMark.length)).isSome then
      sourceAt ((c :: s).drop sourceMark.length)
    else findSource s

inductive TemplateError where
  /-- `cannot determine source path for manifest` -/
  | noSourcePath
  /-- `object not found` -/
  | objectNotFound
  | unmarshal
  deriving DecidableEq

def contains (s sub : Text) : Bool := decide (sub <:+: s)

/-- The loop over the documents, with the source path of the last one. -/
def filterDocs {α : Type} (text : α → Text) (path : Text) :
    Text → List α → Except TemplateError (List α)
  | _, [] => .ok []
  | sourcePath, doc :: docs =>
    let sourcePath := (findSource (text doc)).getD sourcePath
    if sourcePath = [] then .error .noSourcePath
    else
      (filterDocs text path sourcePath docs).map fun result =>
        if contains sourcePath path then doc :: result else result

abbrev RenderedTemplate := List Text

def newRenderedTemplate (y : Text) : RenderedTemplate := splitYaml y

namespace RenderedTemplate

variable (t : RenderedTemplate)

def filter (path : Text) : Except TemplateError RenderedTemplate := filterDocs id path [] t

def getCRDs : Except TemplateError RenderedTemplate := filter t "crds".toList

/-- The namespace of the first catalog source; `unmarshal` reads it from the document. -/
def getEverestCatalogNamespace (unmarshal : Text → Option Text) : Except TemplateError Text := do
  let objs ← filter t "everest-catalogsource.yaml".toList
  match objs with
  | [] => .error .objectNotFound
  | obj :: _ => (unmarshal obj).elim (.error .unmarshal) .ok

end RenderedTemplate

def marker : Text := '\n' :: hyphens

def endMarker : Text := ['\n', '.', '.', '.']

/-- White space, or the end of the text: what YAML wants behind a document marker. -/
def endsLine (s : Text) : Bool := s.head?.all fun c => c = ' ' || c = '\t' || c = '\n' || c = '\r'

/-- A line of YAML's that begins a document (`---`) or ends one (`...`). -/
def documentMarkerAt (marker s : Text) : Option Nat :=
  if marker <+: s ∧ endsLine (s.drop marker.length) = true then some marker.length else none

/-- A line with three hyphens at its beginning that is no document marker lies in a scalar. -/
def noSeparatorInScalar (stream : Text) : Bool :=
  ('\n' :: stream).tails.all fun s => decide (marker <+: s → endsLine (s.drop marker.length) = true)

/-- A file of a chart and the stream of documents that it renders to. -/
structure RenderedFile where
  chart : Text
  path : Text
  stream : Text
  chart_ne_nil : chart ≠ []
  path_ne_nil : path ≠ []
  chart_no_slash : '/' ∉ chart
  no_newline : '\n' ∉ chart ++ path
  no_separator_in_scalar : noSeparatorInScalar stream = true

namespace RenderedFile

variable (file : RenderedFile)

/-- What follows the separator of the file: the header and the stream. -/
def body : Text :=
  '\n' :: (sourceMark ++ (file.chart ++ '/' :: (file.path ++ '\n' :: file.stream)))

def render : Text := hyphens ++ (file.body ++ ['\n'])

end RenderedFile

def render (files : List RenderedFile) : Text := files.flatMap RenderedFile.render

/-- What stands between two `---` markers, with the path of its file; the first one of a file
has the header in it. -/
structure Document where
  path : Text
  segment : Text
  deriving DecidableEq

def RenderedFile.documents (file : RenderedFile) : List Document :=
  (splitScan (documentMarkerAt marker) 0 file.body).map (Document.mk file.path)

def trimLast : List Document → List Document
  | [] => []
  | [d] => [{ d with segment := d.segment.rdropWhile isSpace }]
  | d :: e :: docs => d :: trimLast (e :: docs)

def documents (files : List RenderedFile) : List Document :=
  trimLast (files.flatMap RenderedFile.documents)

/-- The parts with content; there is more than one where a line `...` ends a document and
another one follows it without a `---`. -/
def Document.contents (d : Document) : List Text :=
  (splitScan (documentMarkerAt endMarker) 0 d.segment).filter fun part =>
    (lines part).any significant

def Document.hasContent (d : Document) : Bool := d.contents ≠ []

def Document.isBlank (d : Document) : Bool := d.segment.all isWs

end OpenEverest.Cli.Helm
