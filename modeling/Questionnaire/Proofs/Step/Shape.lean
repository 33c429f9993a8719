import Mathlib
import Questionnaire.Form.Basic
import Questionnaire.Proofs.Reference.DepthFirst
import Questionnaire.Proofs.Reference.Index

/-
  Overlays never change the shape of a form.

  What is left of a form when everything is taken out that overlays may say is its shape: names and
  descriptions of steps, labels, options, help texts and rules of fields, and whether a field
  without a declared type is an enumeration or a text area. Each stage from units to a form either
  does not look at overlays (`find?_bare`, `walk_congr`) or commutes with taking the shape
  (`synthesize_shape`, `materialize_shape`, `assembleSteps_shape`, `ofSteps_shape`). So packages
  that are the same but for their overlays compile to forms of one shape (`compile_shape`).
-/

namespace Questionnaire

/-! ## Packages without overlays -/

/-- A capture unit without its overlays. -/
def CaptureUnit.bare (u : CaptureUnit) : CaptureUnit := { u with overlays := {} }

/-- A bundle without the overlays of its units. -/
def Bundle.bare (b : Bundle) : Bundle :=
  { b with main := b.main.bare, dependencies := b.dependencies.map CaptureUnit.bare }

/-- A package without the overlays of its units. -/
def Package.bare (p : Package) : Package := { p with bundle := p.bundle.bare }

/-! ## Shapes -/

/-- A kind of input, enumerations taken for text areas: an undeclared type is the one or the other
by the options that overlays give. -/
def FieldKind.shape : FieldKind → FieldKind
  | .enumeration => .textarea
  | kind => kind

/-- A field without what overlays say. -/
def Field.shape (f : Field) : Field :=
  { f with labels := ∅, options := ∅, information := ∅, kind := f.kind.shape, rules := {} }

/-- A section with the shapes of its fields. -/
def Section.shape (s : Section) : Section := { s with fields := s.fields.map Field.shape }

/-- A page with the shapes of its fields. -/
def Page.shape (p : Page) : Page := { p with sections := p.sections.map Section.shape }

/-- A draft of a step without what overlays say. -/
def StepDraft.shape (d : StepDraft) : StepDraft :=
  { d with names := ∅, descriptions := ∅, pages := d.pages.map Page.shape }

/-- A step without what overlays say. -/
def Step.shape (s : Step) : Step :=
  { s with names := ∅, descriptions := ∅, pages := s.pages.map Page.shape }

/-- A form with the shapes of its steps. -/
def Form.shape (f : Form) : Form := { f with steps := f.steps.map Step.shape }

/-! ## Finding units -/

namespace UnitIndex

theorem find?_bare (main : CaptureUnit) (dependencies : List CaptureUnit) (id : String) :
    (build main.bare (dependencies.map CaptureUnit.bare)).find? id =
      ((build main dependencies).find? id).map CaptureUnit.bare := by
  have hscan (key : CaptureUnit → String) (hkey : ∀ u : CaptureUnit, key u.bare = key u) :
      (dependencies.map CaptureUnit.bare).find? (key · = id) =
        (dependencies.find? (key · = id)).map CaptureUnit.bare := by
    rw [List.find?_map]
    simp only [Function.comp_def, hkey]
  have hmain : main.bare.id = main.id := rfl
  rw [find?_build, find?_build, hscan (·.id) fun _ => rfl, hscan (·.digest) fun _ => rfl, hmain]
  split
  · rfl
  · rw [Option.map_or]

/-- Two indexes find the same units, up to overlays. -/
def Agrees (index index' : UnitIndex) : Prop :=
  ∀ id, (index.find? id).map CaptureUnit.bare = (index'.find? id).map CaptureUnit.bare

theorem agrees_of_bare_eq {b b' : Bundle} (h : b.bare = b'.bare) :
    (ofBundle b).Agrees (ofBundle b') := by
  intro id
  have hbuild : build b.main.bare (b.dependencies.map CaptureUnit.bare) =
      build b'.main.bare (b'.dependencies.map CaptureUnit.bare) :=
    congrArg (fun b : Bundle => build b.main b.dependencies) h
  rw [ofBundle, ofBundle, ← find?_bare, ← find?_bare, hbuild]

variable {index index' : UnitIndex}

theorem Agrees.canonicalId? (h : index.Agrees index') (id : String) :
    index.canonicalId? id = index'.canonicalId? id := by
  have hbare (found : Option CaptureUnit) :
      found.map (·.id) = (found.map CaptureUnit.bare).map (·.id) := by
    rw [Option.map_map]
    rfl
  rw [UnitIndex.canonicalId?, UnitIndex.canonicalId?, hbare, h id, ← hbare]

end UnitIndex

/-! ## Following references -/

section References

variable {index index' : UnitIndex} {u u' : CaptureUnit}

theorem CaptureUnit.captureBase_eq (hu : u.bare = u'.bare) : u.captureBase = u'.captureBase := by
  have hbase : u.bare.captureBase = u'.bare.captureBase := congrArg CaptureUnit.captureBase hu
  exact hbase

theorem CaptureUnit.links_congr (h : index.Agrees index') (hu : u.bare = u'.bare) :
    u.links index = u'.links index' := by
  unfold links declaredTargets
  rw [captureBase_eq hu, funext h.canonicalId?]

theorem CaptureUnit.node_congr (h : index.Agrees index') (hu : u.bare = u'.bare)
    (parent : Option String) : u.node index parent = u'.node index' parent := by
  unfold node successors CaptureUnit.id
  rw [links_congr h hu, captureBase_eq hu]

namespace RelationGraph

/-- A walk does not look at overlays. -/
theorem walk_congr (h : index.Agrees index') (seen : List String)
    (stack : List (String × Option String)) :
    walk index seen stack = walk index' seen stack := by
  have hsame (id : String) (u : CaptureUnit) (hu : index.find? id = some u) :
      ∃ u', index'.find? id = some u' ∧ u.bare = u'.bare := by
    have hid := h id
    rw [hu, Option.map_some, eq_comm, Option.map_eq_some_iff] at hid
    obtain ⟨u', hu', hbare⟩ := hid
    exact ⟨u', hu', hbare.symm⟩
  fun_induction walk index seen stack with
  | case1 seen => rw [walk_nil]
  | case2 seen id parent stack hfind ih =>
    have hnone : index'.find? id = none := by
      have hid := h id
      rwa [hfind, Option.map_none, eq_comm, Option.map_eq_none_iff] at hid
    rw [walk_unknown hnone, ih]
  | case3 seen id parent stack u hfind hseen ih =>
    obtain ⟨u', hu', hbare⟩ := hsame id u hfind
    have hid : u.id = u'.id := congrArg (·.digest) (CaptureUnit.captureBase_eq hbare)
    rw [walk_again hu' (hid ▸ List.contains_iff_mem.1 hseen), ih]
  | case4 seen id parent stack u hfind hnew seen' fresh' ih =>
    obtain ⟨u', hu', hbare⟩ := hsame id u hfind
    have hid : u.id = u'.id := congrArg (·.digest) (CaptureUnit.captureBase_eq hbare)
    rw [walk_enter hu' (by simpa [hid] using hnew), ih, CaptureUnit.node_congr h hbare, fresh,
      CaptureUnit.successors, ← CaptureUnit.links_congr h hbare, ← hid]
    rfl

theorem extract_congr (h : index.Agrees index') (root : String) :
    extract index root = extract index' root := walk_congr h [] [(root, none)]

end RelationGraph

end References

/-! ## Fields and pages -/

theorem FieldKind.shape_eq_reference_iff {k : FieldKind} :
    k.shape = .reference ↔ k = .reference := by
  cases k <;> simp [shape]

/-- Only the choice between enumeration and text area looks at overlays. -/
theorem fieldKind_shape (id : String) (o o' : OverlayProjection) (hint : Option Hint) :
    (fieldKind id o hint).shape = (fieldKind id o' hint).shape := by
  have hundeclared (b : Bool) :
      (if b then FieldKind.enumeration else .textarea).shape = .textarea := by
    cases b <;> rfl
  unfold fieldKind
  cases declaredType? hint with
  | some name => rfl
  | none => rw [hundeclared, hundeclared]

namespace Field

theorem synthesize_shape (id : String) (o o' : OverlayProjection) (hint : Option Hint)
    (references : SortedMap String) :
    (synthesize id o hint references).shape = (synthesize id o' hint references).shape := by
  have hreference : fieldKind id o hint = .reference ↔ fieldKind id o' hint = .reference := by
    rw [← FieldKind.shape_eq_reference_iff, fieldKind_shape id o o' hint,
      FieldKind.shape_eq_reference_iff]
  simp only [synthesize, shape, hreference, fieldKind_shape id o o' hint]

theorem referenceTarget?_shape (f : Field) : f.shape.referenceTarget? = f.referenceTarget? := by
  simp only [referenceTarget?, shape, FieldKind.shape_eq_reference_iff]

end Field

theorem findField?_shape (fields : List Field) (id : String) :
    findField? (fields.map Field.shape) id = (findField? fields id).map Field.shape := by
  rw [findField?, List.find?_map]
  rfl

namespace Presentation

theorem section?_shape (p : Presentation) (fields : List Field) (entry : OrderEntry) :
    p.section? (fields.map Field.shape) entry = (p.section? fields entry).map Section.shape := by
  cases entry with
  | single id =>
    simp only [section?, findField?_shape, Option.map_map]
    rfl
  | grouped key ids =>
    simp only [section?, Option.map_some, Section.shape, List.map_filterMap, findField?_shape]

theorem materialize_shape (p : Presentation) (fields : List Field) :
    p.materialize (fields.map Field.shape) = (p.materialize fields).map Page.shape := by
  have hpage (key : String) :
      p.layOut (fields.map Field.shape) key = Page.shape ∘ p.layOut fields key := by
    funext d
    simp only [Function.comp_apply, layOut, Page.shape, List.map_filterMap, section?_shape]
  simp only [materialize, List.map_filterMap, Option.map_map, hpage]

end Presentation

theorem Page.default_shape (unit : String) (fields : List Field) :
    Page.default unit (fields.map Field.shape) = (Page.default unit fields).shape := by
  simp only [Page.default, Page.shape, List.map_map]
  rfl

/-! ## Drafts and steps -/

theorem addPages_shape (pages new : List Page) :
    addPages (pages.map Page.shape) (new.map Page.shape) = (addPages pages new).map Page.shape := by
  have hpage (pages : List Page) (page : Page) :
      addPage (pages.map Page.shape) page.shape = (addPage pages page).map Page.shape := by
    rw [addPage, addPage, List.any_map, apply_ite (List.map Page.shape), List.map_append]
    rfl
  induction new generalizing pages with
  | nil => rfl
  | cons page new ih =>
    rw [List.map_cons, addPages, List.foldl_cons, hpage]
    exact ih (addPage pages page)

namespace StepAssembly

theorem extend_shape {a b : StepAssembly} (hmain : a.main = b.main) (htitle : a.title = b.title)
    (d : StepDraft) (steps : List Step) :
    a.extend d.shape (steps.map Step.shape) = (b.extend d steps).map Step.shape := by
  induction steps with
  | nil =>
    have hpages := addPages_shape [] d.pages
    simp only [List.map_nil] at hpages
    simp only [List.map_nil, extend, List.map_cons, opened, Step.shape, StepDraft.shape, hpages,
      hmain, htitle]
  | cons s steps ih =>
    have hid : s.shape.id = d.shape.id ↔ s.id = d.id := Iff.rfl
    simp only [List.map_cons, extend, hid]
    split
    · simp only [List.map_cons, Step.shape, StepDraft.shape, addPages_shape]
    · rw [List.map_cons, ih]

end StepAssembly

theorem assembleSteps_shape (main : String) (title : LanguageMap String)
    (drafts : List StepDraft) :
    assembleSteps main title (drafts.map StepDraft.shape) =
      (assembleSteps main title drafts).map Step.shape := by
  suffices h : ∀ a b : StepAssembly, b.main = a.main → b.title = a.title →
      b.steps = a.steps.map Step.shape →
      (b.addAll (drafts.map StepDraft.shape)).steps = (a.addAll drafts).steps.map Step.shape from
    h _ _ rfl rfl rfl
  induction drafts with
  | nil => exact fun a b _ _ hsteps => hsteps
  | cons d drafts ih =>
    intro a b hmain htitle hsteps
    refine ih (a.add d) (b.add d.shape) hmain htitle ?_
    simp only [StepAssembly.add, hsteps, StepAssembly.extend_shape hmain htitle]

/-! ## Compiling -/

/-- What agrees on all that is mapped to the same agrees on lists that are mapped to the same. -/
theorem map_eq_of_map_eq {α β γ : Type} {f : α → β} {g g' : α → γ} {xs ys : List α}
    (h : ∀ x y, f x = f y → g x = g' y) (hmap : xs.map f = ys.map f) : xs.map g = ys.map g' := by
  induction xs generalizing ys with
  | nil => rw [List.map_eq_nil_iff.1 hmap.symm, List.map_nil, List.map_nil]
  | cons x xs ih =>
    cases ys with
    | nil => cases hmap
    | cons y ys =>
      obtain ⟨hhead, htail⟩ := List.cons.inj hmap
      rw [List.map_cons, List.map_cons, h x y hhead, ih htail]

namespace Compilation

/-- Two compilations are the same but for the overlays of units. -/
structure Agrees (c c' : Compilation) : Prop where
  index : c.index.Agrees c'.index
  described : c.described = c'.described
  main : c.main = c'.main

variable {c c' : Compilation}

theorem Agrees.graph (h : c.Agrees c') (d : Described) : c.graph d = c'.graph d :=
  RelationGraph.extract_congr h.index d.unit

theorem Agrees.fields (h : c.Agrees c') (n : RelationNode) :
    (c.fields n).map Field.shape = (c'.fields n).map Field.shape := by
  simp only [Compilation.fields, List.map_map, Compilation.hint?, h.described]
  exact List.map_congr_left fun id _ => Field.synthesize_shape id _ _ _ _

theorem Agrees.draft (h : c.Agrees c') (d : Described) (n : RelationNode) :
    (c.draft d n).shape = (c'.draft d n).shape := by
  have hpages : (d.presentation.materialize (c.fields n)).map Page.shape =
      (d.presentation.materialize (c'.fields n)).map Page.shape := by
    rw [← Presentation.materialize_shape, ← Presentation.materialize_shape, h.fields n]
  simp only [Compilation.draft, StepDraft.shape, apply_ite (List.map Page.shape), hpages]

theorem Agrees.drafts (h : c.Agrees c') :
    c.drafts.map StepDraft.shape = c'.drafts.map StepDraft.shape := by
  simp only [Compilation.drafts, List.map_flatMap, List.map_map, h.described, h.graph]
  exact List.flatMap_congr fun d _ => List.map_congr_left fun n _ => h.draft d n

theorem Agrees.withDefaultPage (h : c.Agrees c') {s s' : Step} (hs : s.shape = s'.shape) :
    (c.withDefaultPage s).shape = (c'.withDefaultPage s').shape := by
  have hid : s.id = s'.id := by simpa only [Step.shape] using congrArg Step.id hs
  have hpages : s.pages.map Page.shape = s'.pages.map Page.shape := by
    simpa only [Step.shape] using congrArg Step.pages hs
  have hempty : s.pages.isEmpty = s'.pages.isEmpty := by
    rw [← List.isEmpty_map (f := Page.shape), hpages, List.isEmpty_map]
  have hnode : c.node? s.id = c'.node? s'.id := by
    rw [Compilation.node?, Compilation.node?, h.described, hid]
    simp only [h.graph]
  unfold Compilation.withDefaultPage
  rw [hempty, hnode]
  split
  · cases c'.node? s'.id with
    | none => exact hs
    | some n =>
      have hdefault : (Page.default s.id (c.fields n)).shape =
          (Page.default s'.id (c'.fields n)).shape := by
        rw [← Page.default_shape, ← Page.default_shape, h.fields n, hid]
      calc
        _ = { s.shape with pages := [(Page.default s.id (c.fields n)).shape] } := rfl
        _ = { s'.shape with pages := [(Page.default s'.id (c'.fields n)).shape] } := by
          rw [hs, hdefault]
  · exact hs

theorem Agrees.steps (h : c.Agrees c') :
    c.steps.map Step.shape = c'.steps.map Step.shape := by
  have htitle : c.title = c'.title := by
    rw [Compilation.title, Compilation.title, h.described, h.main]
  have hassembled : (assembleSteps c.main c.title c.drafts).map Step.shape =
      (assembleSteps c'.main c'.title c'.drafts).map Step.shape := by
    rw [← assembleSteps_shape, ← assembleSteps_shape, h.main, htitle, h.drafts]
  simp only [Compilation.steps, List.map_map]
  exact map_eq_of_map_eq (fun _ _ => h.withDefaultPage) hassembled

end Compilation

/-! ## Packages -/

theorem Package.presentations_eq {p q : Package} (h : p.bare = q.bare) :
    p.presentations = q.presentations := by
  have hpart : p.bare.presentations = q.bare.presentations := congrArg Package.presentations h
  exact hpart

/-- Packages that are the same but for their overlays give steps of the same shapes. -/
theorem Package.discoveredSteps_shape {p q : Package} (h : p.bare = q.bare) :
    p.discoveredSteps.map Step.shape = q.discoveredSteps.map Step.shape := by
  have hbundle : p.bundle.bare = q.bundle.bare := by
    have hpart : p.bare.bundle = q.bare.bundle := congrArg Package.bundle h
    exact hpart
  have hmain : p.mainId = q.mainId := by
    have hpart : p.bare.mainId = q.bare.mainId := congrArg Package.mainId h
    exact hpart
  have hindex := UnitIndex.agrees_of_bare_eq hbundle
  have hdescribed : p.described = q.described := by
    simp only [Package.described, presentations_eq h, hmain, hindex.canonicalId?]
  exact Compilation.Agrees.steps ⟨hindex, hdescribed, hmain⟩

/-! ## Order and tree -/

theorem Step.targets_shape (s : Step) : s.shape.targets = s.targets := by
  have hfields : s.shape.fields = s.fields.map Field.shape := by
    simp only [Step.fields, Step.shape, List.flatMap_map, List.map_flatMap, Page.fields, Page.shape,
      Section.shape]
  simp only [Step.targets, Step.references, hfields, List.filterMap_map, List.map_filterMap,
    Function.comp_def, Field.referenceTarget?_shape, Option.map_map]

theorem Step.referencesStep_shape (s : Step) (id : String) :
    s.shape.referencesStep id = s.referencesStep id := by
  rw [Step.referencesStep, Step.referencesStep, s.targets_shape]

theorem isReferenced_shape (steps : List Step) (id : String) :
    isReferenced (steps.map Step.shape) id = isReferenced steps id := by
  simp only [isReferenced, List.any_map, Function.comp_def, Step.referencesStep_shape]

namespace StepOrder

theorem edges_shape (steps : List Step) : edges (steps.map Step.shape) = edges steps := by
  have hposition : position? (steps.map Step.shape) = position? steps := by
    funext id
    rw [position?, List.findIdx?_map]
    rfl
  have hsuccessors (s : Step) :
      successors (steps.map Step.shape) s.shape = successors steps s := by
    rw [successors, successors, hposition, s.targets_shape]
  simp only [edges, List.map_map, Function.comp_def, hsuccessors]

/-- Ordering steps does not look at what overlays say. -/
theorem ofSteps_shape (steps : List Step) :
    ofSteps (steps.map Step.shape) =
      ⟨(ofSteps steps).steps.map Step.shape, (ofSteps steps).cycle⟩ := by
  unfold ofSteps
  simp only [edges_shape, List.length_map, List.getElem?_map, Option.map_map]
  split
  · rw [List.map_filterMap]
  · rfl

end StepOrder

namespace StepTree

theorem without_shape (steps : List Step) (id : String) :
    without (steps.map Step.shape) id = (without steps id).map Step.shape := by
  rw [without, List.filter_map]
  rfl

theorem grow_shape (free : List Step) (s : Step) :
    grow (free.map Step.shape) s.shape = grow free s := by
  induction free, s using grow.induct with
  | case1 free s ih =>
    rw [grow_eq, grow_eq, s.targets_shape]
    congr 1
    refine List.filterMap_congr fun id _ => ?_
    have hfind : (free.map Step.shape).find? (·.id = id) =
        (free.find? (·.id = id)).map Step.shape := List.find?_map ..
    cases hchild : free.find? (·.id = id) with
    | none => rw [hfind, hchild]; rfl
    | some child =>
      rw [hfind, hchild, Option.map_some, Option.map_some, Option.map_some, without_shape,
        ih id child hchild]

theorem ofSteps_shape (steps : List Step) : ofSteps (steps.map Step.shape) = ofSteps steps := by
  have hparents : parentSteps (steps.map Step.shape) = (parentSteps steps).map Step.shape := by
    rw [parentSteps, List.filter_map]
    simp only [Function.comp_def, isReferenced_shape]
    rfl
  simp only [ofSteps, hparents, List.isEmpty_map, ← List.map_take, without_shape]
  split <;> simp only [List.map_map] <;>
    exact List.map_congr_left fun s _ => by
      rw [Function.comp_apply, show s.shape.id = s.id from rfl, grow_shape]

end StepTree

namespace Form

theorem parentIndices_shape (f : Form) : f.shape.parentIndices = f.parentIndices := by
  have hparent : f.shape.isParent = f.isParent := by
    funext i
    simp only [isParent, shape, List.getElem?_map, isReferenced_shape]
    cases f.steps[i]? <;> rfl
  rw [parentIndices, hparent, shape, List.length_map, parentIndices]

theorem tree_shape (f : Form) : f.shape.tree = f.tree := StepTree.ofSteps_shape f.steps

/-- Packages that are the same but for their overlays compile to forms of one shape, with the same
parent steps and the same tree of steps. The shape of a form has its languages and its cycle, the
ids, parents, titles and pages of its steps, the texts and sections of the pages, and of every field
all that comes from references and hints. -/
theorem compile_shape {p q : Package} (h : p.bare = q.bare) :
    (compile p).shape = (compile q).shape ∧
      (compile p).parentIndices = (compile q).parentIndices ∧
      (compile p).tree = (compile q).tree := by
  have hshape : (compile p).shape = (compile q).shape := by
    have horder := congrArg StepOrder.ofSteps (Package.discoveredSteps_shape h)
    rw [StepOrder.ofSteps_shape, StepOrder.ofSteps_shape] at horder
    obtain ⟨hsteps, hcycle⟩ := StepOrder.mk.inj horder
    simp only [shape, compile, hsteps, hcycle, Package.presentations_eq h]
  refine ⟨hshape, ?_, ?_⟩
  · rw [← parentIndices_shape, hshape, parentIndices_shape]
  · rw [← tree_shape, hshape, tree_shape]

/-- A package whose main unit has overlays of many kinds. -/
def overlaidPackage : Package where
  bundle := {
    main := {
      captureBase := {
        digest := "work"
        attributes := [("genre", .text "Text"), ("author", .text "refs:person")] }
      overlays := {
        labels := [⟨"eng", SortedMap.empty.insert "genre" "Genre"⟩]
        entries := [⟨"eng", SortedMap.empty.insert "genre" [⟨"n", "Novel"⟩, ⟨"p", "Play"⟩]⟩,
          ⟨"eng", SortedMap.empty.insert "author" [⟨"a", "Ada"⟩]⟩,
          ⟨"eng", SortedMap.empty.insert "genre" [⟨"n", "Novel"⟩]⟩]
        metas := [{ language := "eng", name := some "Work" }]
        conformance := some (SortedMap.empty.insert "genre" (some "M")) } }
    dependencies := [
      { captureBase := { digest := "person", attributes := [("name", .text "Text")] } }] }
  presentations := [
    { captureBase := "work"
      interactions := [SortedMap.empty.insert "author" { kind := some (.name "reference") }] }]

theorem kinds_overlaidPackage :
    (compile overlaidPackage).steps.map (·.fields.map (·.kind)) =
        [[.enumeration, .reference], [.textarea]] ∧
      (compile overlaidPackage.bare).steps.map (·.fields.map (·.kind)) =
        [[.textarea, .reference], [.textarea]] := by cbv

/-- Without its overlays the package has a text area where it had an enumeration, and else the same
shape. -/
theorem compile_shape_overlaid : overlaidPackage.bare = overlaidPackage.bare.bare ∧
    (compile overlaidPackage).steps.map (·.fields.map (·.kind)) =
      [[.enumeration, .reference], [.textarea]] ∧
    (compile overlaidPackage.bare).steps.map (·.fields.map (·.kind)) =
      [[.textarea, .reference], [.textarea]] ∧
    (compile overlaidPackage).shape = (compile overlaidPackage.bare).shape ∧
    (compile overlaidPackage).parentIndices = (compile overlaidPackage.bare).parentIndices ∧
    (compile overlaidPackage).tree = (compile overlaidPackage.bare).tree :=
  ⟨rfl, kinds_overlaidPackage.1, kinds_overlaidPackage.2, compile_shape rfl⟩

end Form
end Questionnaire
