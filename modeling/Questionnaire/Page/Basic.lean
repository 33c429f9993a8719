import Questionnaire.Field.Basic

/-
  Pages and their sections.
-/

namespace Questionnaire

/-- A group of fields on a page. -/
structure Section where
  /-- The key of a named section, or the attribute of an anonymous one. -/
  key : String := ""
  /-- Empty for anonymous sections. -/
  labels : LanguageMap String := ∅
  fields : List Field := []
deriving DecidableEq

/-- The label of a section in a language, else in English. -/
def Section.label? (s : Section) (language : String) : Option String :=
  s.labels.localized? language

/-- One page of a step. -/
structure Page where
  key : String := ""
  labels : LanguageMap String := ∅
  sidebarLabels : LanguageMap String := ∅
  subheadings : LanguageMap String := ∅
  sections : List Section := []
  /-- The capture unit that the page belongs to, as its presentation names it. -/
  captureUnit : String := ""
deriving DecidableEq

namespace Page

/-- The label of a page in a language, else in English. -/
def label? (p : Page) (language : String) : Option String := p.labels.localized? language

/-- The label in the sidebar, else the label of the page. -/
def sidebarLabel? (p : Page) (language : String) : Option String :=
  (p.sidebarLabels.localized? language).or (p.label? language)

/-- The subheading in a language, else in English. -/
def subheading? (p : Page) (language : String) : Option String :=
  p.subheadings.localized? language

/-- The fields of a page in order. -/
def fields (p : Page) : List Field := p.sections.flatMap (·.fields)

/-- The first field with an id. -/
def field? (p : Page) (id : String) : Option Field := p.fields.find? (·.id = id)

end Page
end Questionnaire
