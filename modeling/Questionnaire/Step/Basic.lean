import Questionnaire.Overlay.Projection
import Questionnaire.Page.Basic

/-
  Steps: the navigable units of a form, one for each capture unit.
-/

namespace Questionnaire

/-- A step of a form. -/
structure Step where
  /-- The identifier of the step's capture unit. -/
  id : String := ""
  names : LanguageMap String := ∅
  descriptions : LanguageMap String := ∅
  /-- The title of the form, on the step of the main unit only. -/
  title : Option (LanguageMap String) := none
  /-- The unit through which this one was first reached. -/
  parent : Option String := none
  pages : List Page := []
deriving DecidableEq

namespace Step

/-- The name in a language, else in English. -/
def name (s : Step) (language : String) : String :=
  (s.names.localized? language).getD unnamedStep

/-- The description in a language, else in English. -/
def description? (s : Step) (language : String) : Option String :=
  s.descriptions.localized? language

/-- The title in a language, else in English. -/
def title? (s : Step) (language : String) : Option String :=
  s.title.bind (·.localized? language)

/-- The fields of all pages in order. -/
def fields (s : Step) : List Field := s.pages.flatMap (·.fields)

/-- The first field with an id. -/
def field? (s : Step) (id : String) : Option Field := s.fields.find? (·.id = id)

/-- The reference fields that have a target, with that target. -/
def references (s : Step) : List (Field × String) :=
  s.fields.filterMap fun f => f.referenceTarget?.map (f, ·)

/-- The steps that reference fields lead to. -/
def targets (s : Step) : List String := s.references.map (·.2)

/-- Whether a reference field leads to a step. -/
def referencesStep (s : Step) (id : String) : Bool := s.targets.contains id

end Step
end Questionnaire
