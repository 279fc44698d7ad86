import FirmwareWorkspace.Proofs.Document.Truncation
import FirmwareWorkspace.Proofs.Document.Visits

/-!
# Blocks of components

A block opens and closes with the lines that a reader reaches, in whichever files they stand: a
component entry opens it at once or leaves it to a brace, and the next closing brace, component
entry or section header closes it. The reader only remembers where it stands, so all of this is
told by the lines in front: each fact holds since some line, and no line behind that one ends it.

Inside a block everything belongs to its component. PCDs that are assigned there do not get into
the table, which is the record of the other assignments, in the order in which they are reached.

Main result: `Reader.readAll_pcds`.
-/
namespace FirmwareWorkspace

/-! ### Facts that hold since a line -/

/-- A mark stands in a trace, and no end behind it. What is a mark may depend on what stands in
front of it. -/
def Since {α : Type} (marks : List α → α → Prop) (ends : α → Prop) (trace : List α) : Prop :=
  ∃ front mark behind, trace = front ++ mark :: behind ∧ marks front mark ∧
    ∀ other ∈ behind, ¬ ends other

section Since

variable {α : Type} (marks : List α → α → Prop) (ends : α → Prop)

theorem not_since_nil : ¬ Since marks ends [] := by
  rintro ⟨front, mark, behind, split, _⟩
  exact absurd split.symm (by simp)

theorem since_concat (trace : List α) (last : α) :
    Since marks ends (trace ++ [last]) ↔
      marks trace last ∨ ¬ ends last ∧ Since marks ends trace := by
  constructor
  · rintro ⟨front, mark, behind, split, marked, unended⟩
    rcases List.eq_nil_or_concat behind with rfl | ⟨others, final, rfl⟩
    · obtain ⟨rfl, same⟩ := List.append_inj' split rfl
      cases same
      exact .inl marked
    · rw [List.concat_eq_append, ← List.cons_append, ← List.append_assoc] at split
      obtain ⟨rfl, same⟩ := List.append_inj' split rfl
      cases same
      simp only [List.concat_eq_append, List.forall_mem_append, List.forall_mem_singleton]
        at unended
      exact .inr ⟨unended.2, front, mark, others, rfl, marked, unended.1⟩
  · rintro (marked | ⟨unended, front, mark, behind, rfl, marked, others⟩)
    · exact ⟨trace, last, [], rfl, marked, nofun⟩
    · refine ⟨front, mark, behind ++ [last], by simp, marked, ?_⟩
      simpa only [List.forall_mem_append, List.forall_mem_singleton] using ⟨others, unended⟩

end Since

/-! ### What lines do to blocks -/

namespace LineKind

def isHeader : LineKind → Bool
  | sectionHeader _ => true
  | _ => false

def isComponent : LineKind → Bool
  | component _ _ => true
  | _ => false

/-- A component entry with the brace that opens its block. -/
def isOpenComponent : LineKind → Bool
  | component _ opensBlock => opensBlock
  | _ => false

/-- A header of a section whose type is that of components. -/
def isComponentsHeader : LineKind → Bool
  | sectionHeader (first :: _) => first.sectionType = "components"
  | _ => false

def isLibraryClass : LineKind → Bool
  | libraryClass _ _ => true
  | _ => false

/-- The lines up to which a block goes. -/
def endsBlock : LineKind → Bool
  | sectionHeader _ | component _ _ | blockClose => true
  | _ => false

end LineKind

namespace LineVisit

variable (system : FileSystem) (visit : LineVisit)

/-- What the line is classified as, unless it assigns a PCD. -/
def kind? : Option LineKind :=
  visit.state.kindAt? visit.raw

def assignment? : Option Line.PcdAssignment :=
  visit.state.assignmentAt? visit.raw

/-- The line is live and of some kind. -/
def Is (test : LineKind → Bool) : Prop :=
  ∃ kind, visit.kind? = some kind ∧ test kind = true

/-- The state behind the line. A file that it includes is not entered. -/
def after : PassState :=
  (visit.state.step system .refuse visit.line visit.raw).1

/-- The line adds a symbol and no other. -/
def Adds (symbol : Symbol) : Prop :=
  (visit.after system).pass.symbols = visit.state.pass.symbols ++ [symbol]

/-- The line is a component entry, and its symbol has the key. -/
def Declares (key : String) : Prop :=
  visit.Is LineKind.isComponent ∧
    ∃ symbol, visit.Adds system symbol ∧ symbol.kind = .component ∧ symbol.key = key

end LineVisit

section Traces

variable (system : FileSystem) (trace : List LineVisit)

/-- The last section header is one of components. -/
def IsAmongComponents : Prop :=
  Since (fun _ visit => visit.Is LineKind.isComponentsHeader) (·.Is LineKind.isHeader) trace

/-- The last component entry of the section has the key. -/
def IsComponentOf (key : String) : Prop :=
  Since (fun _ visit => visit.Declares system key)
    (fun visit => visit.Is LineKind.isHeader ∨ visit.Is LineKind.isComponent) trace

/-- A component entry with a brace, or a brace behind a component entry of the section, has opened
a block, and nothing has closed it. -/
def IsBlockOpen : Prop :=
  Since (fun front visit => visit.Is LineKind.isOpenComponent ∨
      visit.Is (· = .blockOpen) ∧ ∃ key, IsComponentOf system front key)
    (·.Is LineKind.endsBlock) trace

end Traces

/-! ### Where a line leaves the reader -/

namespace PassState

theorem report_place (state : PassState) (line : Nat) (problem : Problem) :
    (state.report line problem).place = state.place := rfl

theorem enterFile_refuse_place (state : PassState) (line : Nat) (reference : String)
    (target : Path) : (state.enterFile .refuse line reference target).place = state.place := by
  unfold enterFile
  split <;> rfl

theorem follow_place (state : PassState) (system : FileSystem) (line : Nat) (raw : String)
    (directive : Directive) :
    (state.follow system .refuse line raw directive).1.place = state.place := by
  cases directive with
  | openIf condition => exact (openIf_noted state line condition).place
  | openIfDefined expected arguments => exact (openIfDefined_noted state line expected _).place
  | elseIf condition => exact (elseIf_noted state line condition).place
  | elseBranch arguments => exact (elseBranch_noted state line arguments).place
  | endIf arguments => exact (endIf_noted state line arguments).place
  | includeFile target =>
    have noted := noteInclude_place state system line raw target
    rw [follow, includeFile_eq]
    split
    · rw [enterFile_refuse_place, noted]
    all_goals rw [report_place, noted]
  | fail | inert => rfl

/-- A line that declares nothing stays in its place. -/
theorem step_place (state : PassState) (system : FileSystem) (line : Nat) (raw : String)
    (silent : state.declares raw = false) :
    (state.step system .refuse line raw).1.place = state.place := by
  unfold step
  split
  · rfl
  next coded =>
    split
    next directive _ =>
      rw [directive_eq, markDead, followLive]
      split <;> split <;> first
        | exact state.follow_place system line raw directive
        | rfl
    next plain =>
      split
      next live => simp [declares, coded, plain, live] at silent
      · rfl

theorem declarePath_place (state : PassState) (system : FileSystem) (line : Nat)
    (symbol : Symbol) (what : String) (global : Bool) :
    (state.declarePath system line symbol what global).place = state.place := by
  simp only [declarePath, addSymbol, resolvePath_place]

/-- A line that refers to a path adds its symbol, whatever is found. -/
theorem exists_of_declarePath (state : PassState) (system : FileSystem) (line : Nat)
    (symbol : Symbol) (what : String) (global : Bool) :
    ∃ added : Symbol, added.owner = symbol.owner ∧
      (state.declarePath system line symbol what global).pass.symbols =
        state.pass.symbols ++ [added] := by
  have pass := resolvePath_pass state system line what symbol.value global
  refine ⟨{ symbol with
    target := (state.resolvePath system line what symbol.value global).1 }, rfl, ?_⟩
  rw [← pass]
  rfl

/-- A component entry adds its symbol and goes on with its key. -/
theorem exists_of_declareComponent (state : PassState) (system : FileSystem) (line : Nat)
    (raw path : String) (opensBlock : Bool) :
    ∃ symbol : Symbol, symbol.kind = .component ∧
      (state.declareComponent system line raw path opensBlock).pass.symbols =
        state.pass.symbols ++ [symbol] ∧
      (state.declareComponent system line raw path opensBlock).place =
        { state.place with
          component := some symbol.key, inBlock := opensBlock, subsection := none } := by
  have pass := resolvePath_pass state system line "module" path true
  have place := resolvePath_place state system line "module" path true
  refine ⟨{ state.symbol .component line raw path path with
    target := (state.resolvePath system line "module" path true).1 }, rfl, ?_, ?_⟩
  · rw [← pass]
    rfl
  · rw [← place]
    rfl

end PassState

/-- Two places differ in their subsection at most. -/
structure SectionState.SameBlock (place later : SectionState) : Prop where
  sectionType : later.sectionType = place.sectionType
  component : later.component = place.component
  inBlock : later.inBlock = place.inBlock

namespace SectionState

theorem SameBlock.of_eq {place later : SectionState} (same : later = place) :
    place.SameBlock later :=
  ⟨congrArg _ same, congrArg _ same, congrArg _ same⟩

end SectionState

namespace LineKind

/-- A line that neither opens nor closes anything. -/
structure IsPlain (kind : LineKind) : Prop where
  noHeader : kind.isHeader = false
  noComponent : kind.isComponent = false
  noOpen : kind ≠ blockOpen
  noClose : kind ≠ blockClose

end LineKind

namespace PassState

theorem declare_sameBlock (state : PassState) (system : FileSystem) (line : Nat)
    (raw text : String) (kind : LineKind) (plain : kind.IsPlain) :
    state.place.SameBlock (state.declare system line raw text kind).place := by
  have aimed (symbol : Symbol) (what : String) (global : Bool) :
      state.place.SameBlock (state.declarePath system line symbol what global).place :=
    .of_eq (declarePath_place state system line symbol what global)
  cases kind with
  | sectionHeader => cases plain.noHeader
  | component => cases plain.noComponent
  | blockOpen => exact absurd rfl plain.noOpen
  | blockClose => exact absurd rfl plain.noClose
  | subsection | libraryClassUsage | guidUsage | pcdUsage | guidDeclaration
  | libraryClassDeclaration | other => exact ⟨rfl, rfl, rfl⟩
  | definition name value => exact .of_eq (define_place state line name value)
  | libraryClass | source | package | includeDirectory => exact aimed _ _ _

end PassState

namespace LineVisit

variable (system : FileSystem) (visit : LineVisit)

theorem is_of_kind {kind : LineKind} (classified : visit.kind? = some kind)
    (test : LineKind → Bool) : visit.Is test ↔ test kind = true := by
  simp only [Is, classified, Option.some.injEq, exists_eq_left']

theorem fits_of_kind {kind : LineKind} (classified : visit.kind? = some kind) :
    kind.FitsIn visit.state.place.sectionType := by
  simp only [kind?, PassState.kindAt?, Option.ite_none_right_eq_some, Option.some.injEq]
    at classified
  rw [← classified.2]
  exact Line.classify_fits _ _ _ _

theorem after_of_kind {kind : LineKind} (classified : visit.kind? = some kind) :
    visit.after system = visit.state.declare system visit.line visit.raw
      (visit.state.reader.pcds.replaceInLine (visit.state.expanded visit.raw)) kind :=
  congrArg Prod.fst (visit.state.step_of_kind system .refuse visit.line visit.raw kind classified)

theorem after_of_assignment {assignment : Line.PcdAssignment}
    (assigns : visit.assignment? = some assignment) :
    visit.after system = visit.state.assign visit.line visit.raw assignment :=
  congrArg Prod.fst
    (visit.state.step_of_assignment system .refuse visit.line visit.raw assignment assigns)

/-- A line that neither opens nor closes anything leaves the reader in its section and block. -/
theorem sameBlock_after (plain : ∀ kind, visit.kind? = some kind → kind.IsPlain) :
    visit.state.place.SameBlock (visit.after system).place := by
  cases declares : visit.state.declares visit.raw with
  | false =>
    rw [after]
    exact .of_eq (visit.state.step_place system visit.line visit.raw declares)
  | true =>
    cases assigns : visit.assignment? with
    | some assignment =>
      -- Whether it gets into the table or not, an assignment moves nothing.
      rw [visit.after_of_assignment system assigns, PassState.assign]
      dsimp only
      split <;> exact ⟨rfl, rfl, rfl⟩
    | none =>
      obtain ⟨kind, classified, _⟩ := visit.state.kind_of_declares visit.raw declares assigns
      rw [visit.after_of_kind system classified]
      exact visit.state.declare_sameBlock system visit.line visit.raw _ kind
        (plain kind classified)

end LineVisit

/-! ### What the lines in front tell -/

section Traces

variable (system : FileSystem) (trace : List LineVisit) (visit : LineVisit)

theorem isAmongComponents_concat : IsAmongComponents (trace ++ [visit]) ↔
    visit.Is LineKind.isComponentsHeader ∨
      ¬ visit.Is LineKind.isHeader ∧ IsAmongComponents trace :=
  since_concat _ _ trace visit

theorem isComponentOf_concat (key : String) : IsComponentOf system (trace ++ [visit]) key ↔
    visit.Declares system key ∨
      ¬(visit.Is LineKind.isHeader ∨ visit.Is LineKind.isComponent) ∧
        IsComponentOf system trace key :=
  since_concat _ _ trace visit

theorem isBlockOpen_concat : IsBlockOpen system (trace ++ [visit]) ↔
    (visit.Is LineKind.isOpenComponent ∨
      visit.Is (· = .blockOpen) ∧ ∃ key, IsComponentOf system trace key) ∨
    ¬ visit.Is LineKind.endsBlock ∧ IsBlockOpen system trace :=
  since_concat _ _ trace visit

variable {visit}

theorem isAmongComponents_of_other (other : ¬ visit.Is LineKind.isHeader) :
    IsAmongComponents (trace ++ [visit]) ↔ IsAmongComponents trace := by
  have general : visit.Is LineKind.isComponentsHeader → visit.Is LineKind.isHeader := by
    rintro ⟨kind, classified, marked⟩
    cases kind with
    | sectionHeader => exact ⟨_, classified, rfl⟩
    | _ => cases marked
  rw [isAmongComponents_concat, or_iff_right fun marked => other (general marked)]
  exact and_iff_right other

theorem isComponentOf_of_other (otherToo : ¬ visit.Is LineKind.isHeader)
    (other : ¬ visit.Is LineKind.isComponent) (key : String) :
    IsComponentOf system (trace ++ [visit]) key ↔ IsComponentOf system trace key := by
  rw [isComponentOf_concat, or_iff_right fun declares => other declares.1]
  exact and_iff_right (not_or.mpr ⟨otherToo, other⟩)

end Traces

/-- The lines in front tell where a reader stands: its section, the component of its section, and
whether the block of the component is open. -/
structure Told (system : FileSystem) (trace : List LineVisit) (place : SectionState) : Prop where
  sectionType : place.sectionType = "components" ↔ IsAmongComponents trace
  component : ∀ key, place.component = some key ↔ IsComponentOf system trace key
  inBlock : place.inBlock = true ↔ IsBlockOpen system trace
  among : place.inBlock = true → place.sectionType = "components"
  owned : place.inBlock = true → place.component.isSome = true

namespace Told

variable {system : FileSystem} {trace : List LineVisit} {visit : LineVisit}

theorem initial : Told system [] .initial where
  sectionType := iff_of_false (by decide) (not_since_nil _ _)
  component _ := iff_of_false nofun (not_since_nil _ _)
  inBlock := iff_of_false nofun (not_since_nil _ _)
  among := nofun
  owned := nofun

theorem after_header (qualifiers : List Qualifier)
    (classified : visit.kind? = some (.sectionHeader qualifiers)) :
    Told system (trace ++ [visit]) (visit.after system).place := by
  have moved : (visit.after system).place = .enter qualifiers :=
    congrArg PassState.place (visit.after_of_kind system classified)
  have is := visit.is_of_kind classified
  rw [moved]
  constructor
  · rw [isAmongComponents_concat]
    cases qualifiers with
    | nil | cons =>
      simp [is, SectionState.enter, LineKind.isComponentsHeader, LineKind.isHeader]
  · intro key
    rw [isComponentOf_concat]
    simp [is, SectionState.enter, LineVisit.Declares, LineKind.isHeader, LineKind.isComponent]
  · rw [isBlockOpen_concat]
    simp [is, SectionState.enter, LineKind.isOpenComponent, LineKind.endsBlock]
  · nofun
  · nofun

theorem after_component (told : Told system trace visit.state.place) (path : String)
    (opensBlock : Bool) (classified : visit.kind? = some (.component path opensBlock)) :
    Told system (trace ++ [visit]) (visit.after system).place := by
  have declared := visit.after_of_kind system classified
  obtain ⟨symbol, kind, added, moved⟩ :=
    visit.state.exists_of_declareComponent system visit.line visit.raw path opensBlock
  have adds : visit.Adds system symbol := by
    rw [LineVisit.Adds, declared]
    exact added
  have place := (congrArg PassState.place declared).trans moved
  have is := visit.is_of_kind classified
  -- The symbol of the entry is the only one that the line adds.
  have own (key : String) : visit.Declares system key ↔ symbol.key = key := by
    constructor
    · rintro ⟨-, other, addsToo, -, rfl⟩
      have same := List.append_cancel_left (adds.symm.trans addsToo)
      rw [List.singleton_inj.mp same]
    · exact fun keyed => ⟨(is _).mpr rfl, symbol, adds, kind, keyed⟩
  rw [place]
  constructor
  · rw [isAmongComponents_of_other trace (by simp [is, LineKind.isHeader])]
    exact told.sectionType
  · intro key
    rw [isComponentOf_concat, own]
    simp [is, LineKind.isHeader, LineKind.isComponent]
  · rw [isBlockOpen_concat]
    simp [is, LineKind.isOpenComponent, LineKind.endsBlock]
  · rintro rfl
    exact (visit.fits_of_kind classified).component path rfl
  · exact fun _ => rfl

/-- A line that is no header and no component entry stays with the component of its section. -/
theorem after_within (told : Told system trace visit.state.place) {later : SectionState}
    (noHeader : ¬ visit.Is LineKind.isHeader) (noComponent : ¬ visit.Is LineKind.isComponent)
    (sectionType : later.sectionType = visit.state.place.sectionType)
    (component : later.component = visit.state.place.component)
    (inBlock : later.inBlock = true ↔ IsBlockOpen system (trace ++ [visit]))
    (among : later.inBlock = true → later.sectionType = "components")
    (owned : later.inBlock = true → later.component.isSome = true) :
    Told system (trace ++ [visit]) later where
  sectionType := by
    rw [isAmongComponents_of_other trace noHeader, sectionType]
    exact told.sectionType
  component key := by
    rw [isComponentOf_of_other system trace noHeader noComponent, component]
    exact told.component key
  inBlock := inBlock
  among := among
  owned := owned

theorem after_blockOpen (told : Told system trace visit.state.place)
    (classified : visit.kind? = some .blockOpen) :
    Told system (trace ++ [visit]) (visit.after system).place := by
  have moved : (visit.after system).place = { visit.state.place with
      inBlock := visit.state.place.component.isSome, subsection := none } :=
    congrArg PassState.place (visit.after_of_kind system classified)
  have is := visit.is_of_kind classified
  rw [moved]
  apply told.after_within
  · simp [is, LineKind.isHeader]
  · simp [is, LineKind.isComponent]
  · rfl
  · rfl
  · have entered : visit.state.place.component.isSome = true ↔
        ∃ key, IsComponentOf system trace key := by
      simp only [Option.isSome_iff_exists, told.component]
    rw [isBlockOpen_concat]
    simp only [is, LineKind.isOpenComponent, LineKind.endsBlock, decide_true, Bool.false_eq_true,
      false_or, not_false_eq_true, true_and, entered, ← told.inBlock]
    -- A block that is open already has a component.
    exact ⟨.inl, fun either => either.elim id fun opened => entered.mp (told.owned opened)⟩
  · exact fun _ => (visit.fits_of_kind classified).blockOpen rfl
  · exact id

theorem after_blockClose (told : Told system trace visit.state.place)
    (classified : visit.kind? = some .blockClose) :
    Told system (trace ++ [visit]) (visit.after system).place := by
  have moved : (visit.after system).place = { visit.state.place with
      inBlock := false, subsection := none } :=
    congrArg PassState.place (visit.after_of_kind system classified)
  have is := visit.is_of_kind classified
  rw [moved]
  apply told.after_within
  · simp [is, LineKind.isHeader]
  · simp [is, LineKind.isComponent]
  · rfl
  · rfl
  · rw [isBlockOpen_concat]
    simp [is, LineKind.isOpenComponent, LineKind.endsBlock]
  · nofun
  · nofun

theorem after_plain (told : Told system trace visit.state.place)
    (plain : ∀ kind, visit.kind? = some kind → kind.IsPlain) :
    Told system (trace ++ [visit]) (visit.after system).place := by
  have same := visit.sameBlock_after system plain
  have isNot (test : LineKind → Bool) (unmarked : ∀ kind, kind.IsPlain → test kind = false) :
      ¬ visit.Is test := by
    rintro ⟨kind, classified, marked⟩
    rw [unmarked kind (plain kind classified)] at marked
    cases marked
  have noOpen : ¬(visit.Is LineKind.isOpenComponent ∨
      visit.Is (· = .blockOpen) ∧ ∃ key, IsComponentOf system trace key) := by
    rintro (opens | ⟨opens, -⟩)
    · refine isNot LineKind.isOpenComponent (fun kind plain => ?_) opens
      cases kind with
      | component => cases plain.noComponent
      | _ => rfl
    · exact isNot (· = .blockOpen) (fun _ plain => decide_eq_false plain.noOpen) opens
  have noEnd := isNot LineKind.endsBlock fun kind plain => by
    cases kind with
    | sectionHeader => cases plain.noHeader
    | component => cases plain.noComponent
    | blockClose => exact absurd rfl plain.noClose
    | _ => rfl
  -- What the visit leaves alone is told as before, and it neither opens nor ends a block.
  apply told.after_within
  · exact isNot LineKind.isHeader fun _ plain => plain.noHeader
  · exact isNot LineKind.isComponent fun _ plain => plain.noComponent
  · exact same.sectionType
  · exact same.component
  · rw [isBlockOpen_concat, or_iff_right noOpen, same.inBlock]
    exact told.inBlock.trans (and_iff_right noEnd).symm
  · rw [same.inBlock, same.sectionType]
    exact told.among
  · rw [same.inBlock, same.component]
    exact told.owned

/-- One more line is told of like those in front of it. -/
theorem after (told : Told system trace visit.state.place) :
    Told system (trace ++ [visit]) (visit.after system).place := by
  cases classified : visit.kind? with
  | none => exact told.after_plain fun kind some => absurd (classified.symm.trans some) nofun
  | some kind =>
    cases kind with
    | sectionHeader qualifiers => exact after_header qualifiers classified
    | component path opensBlock => exact told.after_component path opensBlock classified
    | blockOpen => exact told.after_blockOpen classified
    | blockClose => exact told.after_blockClose classified
    | _ =>
      refine told.after_plain fun kind some => ?_
      rw [classified] at some
      cases some
      exact ⟨rfl, rfl, nofun, nofun⟩

end Told

/-! ### From line to line -/

/-- A reader that is in one place reaches lines and ends up in another: each line is reached where
the one in front of it leaves the reader. -/
inductive Passage (system : FileSystem) : SectionState → List LineVisit → SectionState → Prop
  | nil {place : SectionState} : Passage system place [] place
  | cons {visit : LineVisit} {rest : List LineVisit} {next last : SectionState}
      (moved : (visit.after system).place = next) (later : Passage system next rest last) :
      Passage system visit.state.place (visit :: rest) last

namespace Passage

variable {system : FileSystem} {first middle last : SectionState} {front back : List LineVisit}
  {visit : LineVisit}

theorem append (passage : Passage system first front middle)
    (later : Passage system middle back last) : Passage system first (front ++ back) last := by
  induction passage with
  | nil => exact later
  | cons moved _ ih => exact .cons moved (ih later)

/-- The lines in front of a line lead to it. -/
theorem before (passage : Passage system first (front ++ visit :: back) last) :
    Passage system first front visit.state.place := by
  induction front generalizing first with
  | nil =>
    cases passage
    exact .nil
  | cons _ _ ih =>
    cases passage with
    | cons moved later => exact .cons moved (ih later)

/-- Lines tell where they lead, if those in front of them tell where they start. -/
theorem told {trace : List LineVisit} (passage : Passage system first front last)
    (told : Told system trace first) : Told system (trace ++ front) last := by
  induction passage generalizing trace with
  | nil =>
    rw [List.append_nil]
    exact told
  | cons moved _ ih =>
    -- The first line goes behind those in front of it.
    rw [List.append_cons]
    exact ih (moved ▸ told.after)

end Passage

theorem LineVisit.after_place_of_entry (visit : LineVisit) (system : FileSystem) (entry : Entry)
    (enters : visit.state.entryAt? system visit.line visit.raw = some entry) :
    (visit.after system).place = entry.state.place := by
  rw [after, visit.state.step_of_entry system .refuse visit.line visit.raw entry enters]
  rfl

/-- The lines of a run follow each other through the files that it enters. -/
theorem Runs.passage {system : FileSystem} {depth line : Nat} {state : PassState}
    {lines : List String} {events : List ReadEvent} {outcome : Step}
    (run : Runs system depth state line lines events outcome) :
    Passage system state.place
      (state.visits system (.upTo system depth) (Reader.visits system depth) line lines)
      outcome.1.place := by
  -- A line that enters a file, the lines of the file and those behind it make one passage.
  induction run with
  | done => exact .nil
  | @stop _ state _ line raw _ _ stays stopped =>
    have left : (LineVisit.mk state line raw).after system = _ := congrArg Prod.fst stopped
    rw [PassState.visits_stop stays stopped]
    exact Passage.cons (congrArg PassState.place left) .nil
  | @advance _ state _ line raw _ _ _ stays moved _ ih =>
    have left : (LineVisit.mk state line raw).after system = _ := congrArg Prod.fst moved
    rw [PassState.visits_advance stays moved]
    exact Passage.cons (congrArg PassState.place left) ih
  | @shut _ state line raw _ entry _ _ enters blocked _ ih =>
    have left := (LineVisit.mk state line raw).after_place_of_entry system entry enters
    rw [PassState.report_place] at ih
    rw [PassState.visits_shut enters blocked]
    exact Passage.cons left ih
  | @enter _ state _ line raw _ _ entry _ _ _ _ enters readable inside _ innerIH ih =>
    have left := (LineVisit.mk state line raw).after_place_of_entry system entry enters
    rw [PassState.visits_enter enters readable inside]
    exact Passage.cons left (innerIH.append ih)

/-- The lines of a file, and of those that it includes, follow each other. -/
theorem Reader.exists_passage (system : FileSystem) (depth : Nat) (path : Path)
    (inherited : Option Dialect) (place : SectionState) (reader : Reader) :
    ∃ last, Passage system place (visits system depth path inherited place reader) last := by
  rcases readable_or_blocked system depth path.normalize with
    ⟨levels, text, rfl, readable⟩ | blocked
  · have ran := (Runs.of_steps system levels 0 (.opening reader path.normalize inherited place)
      (Text.lines text)).passage
    rw [visits_readable system levels path inherited place reader text readable]
    exact ⟨_, ran⟩
  · rw [visits_unreadable system depth path inherited place reader blocked]
    exact ⟨_, .nil⟩

/-- The lines of a file tell of each line where it is reached. -/
theorem Reader.told_of_visits (system : FileSystem) (depth : Nat) (path : Path)
    (inherited : Option Dialect) (reader : Reader) (before after : List LineVisit)
    (visit : LineVisit)
    (reached : visits system depth path inherited .initial reader = before ++ visit :: after) :
    Told system before visit.state.place := by
  obtain ⟨last, passage⟩ := exists_passage system depth path inherited .initial reader
  rw [reached] at passage
  exact passage.before.told Told.initial

/-! ### The table of PCDs -/

/-- The entry of a PCD that the line assigns while no block is open. -/
def LineVisit.globalPcd? (visit : LineVisit) : Option PcdEntry :=
  if visit.state.place.owner.isSome then none
  else visit.assignment?.map fun assignment =>
    ⟨assignment.space, assignment.name,
      Text.trim (visit.state.reader.pcds.replaceInLine assignment.value),
      ⟨visit.state.pass.file, visit.line⟩⟩

namespace PassState

theorem assign_pcds (state : PassState) (line : Nat) (raw : String)
    (assignment : Line.PcdAssignment) (assigns : state.assignmentAt? raw = some assignment) :
    (state.assign line raw assignment).reader.pcds.assignments =
      state.reader.pcds.assignments ++ (LineVisit.mk state line raw).globalPcd?.toList := by
  have said : (LineVisit.mk state line raw).assignment? = some assignment := assigns
  simp only [assign, LineVisit.globalPcd?, said]
  split
  next owned => simp [owned, addSymbol]
  next free => simp [free, addSymbol, PcdTable.set]

theorem survives_pcds (pcds : PcdTable) :
    SurvivesDirectives fun state => state.reader.pcds = pcds where
  report _ _ _ _ kept := kept
  resolver _ _ kept := kept
  place _ _ _ kept := kept
  symbol _ _ _ kept := kept
  stack _ _ kept := kept
  inclusion _ _ kept := kept

theorem define_pcds (state : PassState) (line : Nat) (name value : String) :
    (state.define line name value).reader.pcds = state.reader.pcds := by
  unfold define
  split
  · rfl
  · dsimp only
    split <;> rfl

/-- A line that assigns no PCD leaves the table alone. -/
theorem step_pcds (state : PassState) (system : FileSystem) (line : Nat) (raw : String)
    (unassigned : state.assignmentAt? raw = none) :
    (state.step system .refuse line raw).1.reader.pcds = state.reader.pcds := by
  by_cases defines : ∃ name value, state.kindAt? raw = some (.definition name value)
  · obtain ⟨name, value, classified⟩ := defines
    rw [state.step_of_kind system .refuse line raw _ classified]
    exact state.define_pcds line name value
  · exact (survives_pcds state.reader.pcds).step_unbound (fun _ _ kept => kept) state system line
      raw unassigned (fun name value classified => defines ⟨name, value, classified⟩) rfl

end PassState

theorem LineVisit.globalPcd_of_unassigned (visit : LineVisit) (none : visit.assignment? = none) :
    visit.globalPcd? = .none := by
  simp only [globalPcd?, none, Option.map_none, ite_self]

/-- Lines add the entries of what they assign to the table, and nothing else changes it. -/
theorem replays_pcds (system : FileSystem) :
    Replays system (·.pcds.assignments) fun entries visit =>
      entries ++ visit.globalPcd?.toList where
  step state line raw _ := by
    cases assigns : state.assignmentAt? raw with
    | some assignment =>
      rw [state.step_of_assignment system .refuse line raw assignment assigns]
      exact state.assign_pcds line raw assignment assigns
    | none =>
      rw [state.step_pcds system line raw assigns,
        LineVisit.globalPcd_of_unassigned ⟨state, line, raw⟩ assigns, Option.toList_none,
        List.append_nil]
  entry state line raw entry enters := by
    have silent := LineVisit.globalPcd_of_unassigned ⟨state, line, raw⟩
      (state.assignment_of_entry system line raw entry enters)
    rw [silent, Option.toList_none, List.append_nil,
      (PassState.survives_pcds state.reader.pcds).entry enters rfl]
  shut _ _ _ := rfl
  opening _ _ _ _ := rfl
  finish state fatal := by
    obtain ⟨_, finished⟩ := Reader.finish_eq state fatal
    rw [finished]

/-- The table is the record of the assignments outside of blocks. -/
theorem Reader.readAll_assignments (reader : Reader) (system : FileSystem) (paths : List Path) :
    (reader.readAll system paths).pcds.assignments = reader.pcds.assignments ++
      (reader.visitsOfAll system paths).filterMap LineVisit.globalPcd? := by
  have replayed := (replays_pcds system).readAll reader paths
  have appended (visits : List LineVisit) (entries : List PcdEntry) :
      visits.foldl (fun entries visit => entries ++ visit.globalPcd?.toList) entries =
        entries ++ visits.filterMap LineVisit.globalPcd? := by
    induction visits generalizing entries with
    | nil => simp
    | cons visit rest ih => cases told : visit.globalPcd? <;> simp [ih, told]
  rw [appended] at replayed
  exact replayed

/-! ### Lines in a block -/

namespace LineVisit

variable (system : FileSystem) (visit : LineVisit)

theorem adds_of_assignment {assignment : Line.PcdAssignment}
    (assigns : visit.assignment? = some assignment) :
    ∃ symbol : Symbol, visit.Adds system symbol ∧ symbol.owner = visit.state.place.owner := by
  have assigned := visit.after_of_assignment system assigns
  refine ⟨{ visit.state.symbol .pcd visit.line visit.raw
    (assignment.space ++ "." ++ assignment.name)
    (visit.state.reader.pcds.replaceInLine assignment.value) with
    owner := visit.state.place.owner }, ?_, rfl⟩
  rw [Adds, assigned, PassState.assign]
  dsimp only
  split <;> rfl

theorem adds_of_libraryClass (names : visit.Is LineKind.isLibraryClass) :
    ∃ symbol : Symbol, visit.Adds system symbol ∧ symbol.owner = visit.state.place.owner := by
  obtain ⟨kind, classified, isClass⟩ := names
  cases kind with
  | libraryClass name path =>
    obtain ⟨symbol, owned, added⟩ := visit.state.exists_of_declarePath system visit.line
      { visit.state.symbol .libraryClass visit.line visit.raw name path with
        owner := visit.state.place.owner } "library instance" true
    have adds : visit.Adds system symbol := by
      rw [Adds, visit.after_of_kind system classified]
      exact added
    exact ⟨symbol, adds, owned⟩
  | _ => cases isClass

/-- A line in a block leaves the table of PCDs alone. -/
theorem pcds_of_owned (owned : visit.state.place.owner.isSome = true) :
    (visit.after system).reader.pcds = visit.state.reader.pcds := by
  cases assigns : visit.assignment? with
  | some assignment =>
    rw [visit.after_of_assignment system assigns, PassState.assign]
    obtain ⟨key, owner⟩ := Option.isSome_iff_exists.mp owned
    simp only [owner, PassState.addSymbol]
  | none =>
    rw [after]
    exact visit.state.step_pcds system visit.line visit.raw assigns

end LineVisit

namespace Told

variable {system : FileSystem} {trace : List LineVisit} {place : SectionState}

/-- The owner of what a line declares is the component whose block is open. -/
theorem owner (told : Told system trace place) (key : String) :
    place.owner = some key ↔ IsBlockOpen system trace ∧ IsComponentOf system trace key := by
  rw [SectionState.owner, Option.ite_none_right_eq_some, told.inBlock, told.component]

theorem owner_isSome (told : Told system trace place) :
    place.owner.isSome = true ↔ IsBlockOpen system trace := by
  rw [← told.inBlock]
  constructor
  · intro owned
    by_contra outside
    rw [SectionState.owner, if_neg outside] at owned
    cases owned
  · intro inside
    rw [SectionState.owner, if_pos inside]
    exact told.owned inside

end Told

/-- PCDs of components stay out of the table. After any files, the history of a PCD consists of
its assignments outside of blocks, in the order in which they were reached, and the last of them is
its value. A block is open only among components and behind a component entry; a PCD that is
assigned there, or a library instance that is named, belongs to that component, and the table stays
as it is. -/
theorem Reader.readAll_pcds (system : FileSystem) (seeds : DefinitionTable) (resolver : Resolver)
    (files : FileSet) (paths : List Path) :
    let start := Reader.new (.new seeds resolver) files
    let done := start.readAll system paths
    let entries := (start.visitsOfAll system paths).filterMap LineVisit.globalPcd?
    (∀ space name,
      let own := entries.filter fun entry => entry.space = space ∧ entry.name = name
      done.pcds.history space name = own ∧ done.pcds.find? space name = own.getLast?) ∧
    ∀ reader path before visit after,
      Reader.visits system (system.fileCount + 1) path none .initial reader =
        before ++ visit :: after →
      (visit.globalPcd? ≠ none ↔ visit.assignment? ≠ none ∧ ¬ IsBlockOpen system before) ∧
      (IsBlockOpen system before →
        IsAmongComponents before ∧
        (visit.after system).reader.pcds = visit.state.reader.pcds ∧
        ∃ key, IsComponentOf system before key ∧
          (visit.assignment? ≠ none ∨ visit.Is LineKind.isLibraryClass →
            ∃ symbol : Symbol, visit.Adds system symbol ∧ symbol.owner = some key)) := by
  intro start done entries
  refine ⟨fun space name => ?_, fun reader path before visit after reached => ?_⟩
  · have recorded : done.pcds.assignments = entries := start.readAll_assignments system paths
    simp only [PcdTable.find?, PcdTable.history, recorded, and_self]
  -- The lines in front tell whether a block is open, and so whether the line has an owner.
  have told := Reader.told_of_visits system _ path none reader before after visit reached
  refine ⟨?_, fun opened => ?_⟩
  · rw [← told.owner_isSome, LineVisit.globalPcd?]
    split
    next owned => simp [owned]
    next free => simp [free]
  have owned := told.owner_isSome.mpr opened
  obtain ⟨key, owner⟩ := Option.isSome_iff_exists.mp owned
  refine ⟨told.sectionType.mp (told.among (told.inBlock.mpr opened)),
    visit.pcds_of_owned system owned, key, ((told.owner key).mp owner).2, ?_⟩
  rw [← owner]
  rintro (assigns | names)
  · obtain ⟨assignment, assigned⟩ := Option.ne_none_iff_exists'.mp assigns
    exact visit.adds_of_assignment system assigned
  · exact visit.adds_of_libraryClass system names

/-! ### A block that an included file closes -/

def blockFiles : FileSystem :=
  .memory (.ofList [
    (⟨"/ws/P.dsc"⟩, "[Components]\nM.inf\n\x7b\n!include X.inc\ngToken.Limit|3\n"),
    (⟨"/ws/X.inc"⟩, "gToken.Limit|1\n\x7d\ngToken.Limit|2\n"),
    (⟨"/ws/M.inf"⟩, "")])

def blockStart : Reader :=
  .new (.new (.new DefinitionTable.defaultPasses) (.new ⟨"/ws"⟩ [])) .empty

def blockTrace : List LineVisit :=
  Reader.visits blockFiles (blockFiles.fileCount + 1) ⟨"/ws/P.dsc"⟩ none .initial blockStart

/-- The included file assigns a PCD in the block that the including file has opened, and closes the
block. The assignments behind it, in both files, are those of the table. -/
theorem blockFiles_pcds :
    (blockStart.readAll blockFiles [⟨"/ws/P.dsc"⟩]).pcds.history "gToken" "Limit" =
      [⟨"gToken", "Limit", "2", ⟨⟨1⟩, 2⟩⟩, ⟨"gToken", "Limit", "3", ⟨⟨0⟩, 4⟩⟩] ∧
    ∃ before visit after, blockTrace = before ++ visit :: after ∧
      visit.raw = "gToken.Limit|1" ∧ IsBlockOpen blockFiles before ∧ IsAmongComponents before ∧
      ∃ key symbol, IsComponentOf blockFiles before key ∧
        visit.Adds blockFiles symbol ∧ symbol.owner = some key := by
  obtain ⟨table, blocks⟩ := Reader.readAll_pcds blockFiles (.new DefinitionTable.defaultPasses)
    (.new ⟨"/ws"⟩ []) .empty [⟨"/ws/P.dsc"⟩]
  have ⟨entries, fifth⟩ :
      (blockStart.visitsOfAll blockFiles [⟨"/ws/P.dsc"⟩]).filterMap LineVisit.globalPcd? =
        [⟨"gToken", "Limit", "2", ⟨⟨1⟩, 2⟩⟩, ⟨"gToken", "Limit", "3", ⟨⟨0⟩, 4⟩⟩] ∧
      blockTrace[4]?.any (fun visit => visit.raw = "gToken.Limit|1" ∧
        visit.assignment? ≠ none ∧ visit.globalPcd? = none) = true := by
    decide +kernel
  have recorded := (table "gToken" "Limit").1
  rw [← blockStart, entries] at recorded
  obtain ⟨visit, there, told⟩ := (Option.any_eq_true _ _).mp fifth
  obtain ⟨raw, assigns, unrecorded⟩ := of_decide_eq_true told
  obtain ⟨long, rfl⟩ := List.getElem?_eq_some_iff.mp there
  have split : blockTrace = blockTrace.take 4 ++ blockTrace[4] :: blockTrace.drop 5 := by
    rw [List.getElem_cons_drop, List.take_append_drop]
  obtain ⟨outside, inside⟩ := blocks blockStart ⟨"/ws/P.dsc"⟩ _ _ _ split
  -- An assignment outside of all blocks would be recorded.
  have opened : IsBlockOpen blockFiles (blockTrace.take 4) := by
    by_contra closed
    exact outside.mpr ⟨assigns, closed⟩ unrecorded
  obtain ⟨among, _, key, component, owns⟩ := inside opened
  obtain ⟨symbol, adds, owned⟩ := owns (.inl assigns)
  exact ⟨recorded, _, _, _, split, raw, opened, among, key, symbol, component, adds, owned⟩

end FirmwareWorkspace
