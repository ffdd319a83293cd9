import OpenEverest.Cli.HelmTemplate

/-!
# How a template is split

Between two markers lies one document. Its marker is found, unless a blank document directly
before it took the newline; then the hyphens stay in front of the document.
-/

namespace OpenEverest.Cli.Helm

open Framework

def strip (s : Text) : Text := (s.dropWhile isWs).rdropWhile isWs

/-- The pieces that are kept, each with its document. A blank document whose marker is found
takes the newline of the next marker; the next document then has its hyphens in front. -/
def kept : Bool → List Document → List (Text × Document)
  | _, [] => []
  | true, d :: docs =>
    if d.isBlank then kept false docs
    else if isYamlEmpty (strip d.segment) then kept true docs
    else (trimSpace d.segment, d) :: kept true docs
  | false, d :: docs => (trimSpace (hyphens ++ d.segment), d) :: kept true docs

def keep (pieces : List Text) : List Text :=
  (pieces.filter fun d => !isYamlEmpty d).map trimSpace

/-- What a trimmed template is like: no marker inside a document, no space at the end. -/
structure Trimmed (docs : List Document) : Prop where
  clean : ∀ d ∈ docs, ¬ marker <:+: d.segment
  no_space : ∀ d ∈ docs.getLast?, d.segment.rdropWhile isWs = d.segment

theorem Trimmed.tail {d : Document} {docs : List Document} (h : Trimmed (d :: docs)) :
    Trimmed docs := by
  refine ⟨fun e he => h.clean e (List.mem_cons_of_mem d he), ?_⟩
  cases docs with
  | nil => simp
  | cons e docs => simpa using h.no_space

end OpenEverest.Cli.Helm
