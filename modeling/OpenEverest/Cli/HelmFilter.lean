import OpenEverest.Cli.HelmDocuments
import Mathlib.Data.List.Chain

/-!
# Filtering a rendered template

A filter must return the documents of the files whose path matches. It does so exactly where no
document without content is left over or glued to the next, no two documents stand between the
same markers, and the last source path that is named is always the one of the file.
-/

namespace OpenEverest.Cli.Helm

open Framework

def nonEmpty (files : List RenderedFile) : List Document :=
  (documents files).filter Document.hasContent

/-- The text of a document, trimmed, with or without the hyphens before it. -/
def IsTextOf (d : Document) (r : Text) : Prop :=
  r = trimSpace d.segment ∨ r = trimSpace (hyphens ++ d.segment)

/-- The split template is the documents with content, in order and each once, every text of it
holds one document, and for every path the filter returns those of the files whose path
contains it. -/
def FilterLaw (files : List RenderedFile) : Prop :=
  ∃ returned : List (Text × Document),
    newRenderedTemplate (render files) = returned.map Prod.fst ∧
    returned.map Prod.snd = nonEmpty files ∧
    (∀ r ∈ returned, IsTextOf r.2 r.1 ∧ r.2.contents.length = 1) ∧
    ∀ path, filterDocs Prod.fst path [] returned =
      .ok (returned.filter fun r => contains r.2.path path)

theorem filterDocs_map {α β : Type} (f : α → β) (text : β → Text) (path sourcePath : Text)
    (docs : List α) :
    filterDocs text path sourcePath (docs.map f) =
      (filterDocs (fun a => text (f a)) path sourcePath docs).map (List.map f) := by
  induction docs generalizing sourcePath with
  | nil => rfl
  | cons doc docs ih =>
    simp only [List.map_cons, filterDocs, ih]
    split
    · rfl
    · cases filterDocs (fun a => text (f a)) path _ docs with
      | error e => rfl
      | ok result =>
        simp only [Except.map]
        split <;> rfl

theorem FilterLaw.filter {files : List RenderedFile} (h : FilterLaw files) (path : Text) :
    ∃ returned : List (Text × Document),
      RenderedTemplate.filter (newRenderedTemplate (render files)) path =
        .ok (returned.map Prod.fst) ∧
      returned.map Prod.snd = (nonEmpty files).filter (fun d => contains d.path path) ∧
      ∀ r ∈ returned, IsTextOf r.2 r.1 ∧ r.2.contents.length = 1 := by
  obtain ⟨returned, htexts, hdocs, htext, hfilter⟩ := h
  refine ⟨returned.filter fun r => contains r.2.path path, ?_, ?_, ?_⟩
  · rw [htexts, RenderedTemplate.filter, filterDocs_map]
    exact congrArg (Except.map (List.map Prod.fst)) (hfilter path)
  · rw [← hdocs, List.filter_map]
    rfl
  · intro r hr
    exact htext r (List.mem_filter.mp hr).1

/-- No document without content comes directly after a blank one, and none is kept for a line
that is too long. -/
structure Separated (docs : List Document) : Prop where
  apart : docs.IsChain fun d e => d.isBlank = true → e.hasContent = true
  short : ∀ d ∈ docs, d.hasContent = false → isYamlEmpty (strip d.segment) = true

def named (d : Document) : Option Text := findSource (trimSpace d.segment)

def role : RenderedFile where
  chart := "everest".toList
  path := "templates/role.yaml".toList
  stream := "kind: Role\n---\n# the end\n".toList
  chart_ne_nil := by decide
  path_ne_nil := by decide
  chart_no_slash := by decide
  no_newline := by decide
  no_separator_in_scalar := by decide +kernel

end OpenEverest.Cli.Helm
