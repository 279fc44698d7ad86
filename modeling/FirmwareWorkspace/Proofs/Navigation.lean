import FirmwareWorkspace.Navigation
import FirmwareWorkspace.Proofs.Document.Quoting
import FirmwareWorkspace.Proofs.Load.Documents

/-!
# Links and places

There are two ways to the file that a symbol names: a link covers the symbol, and a position leads
where the first symbol leads that covers it. Where the symbols of a file stand on lines of their
own, no two of them cover one position, and the two ways agree: a link leads to its target from
each of its columns, and no position in a path leads anywhere without a link.

The symbols of a published document do stand on lines of their own if its file was passed once, and
each of them covers its text in its line.

Main result: `Workspace.load_isPlaced`.
-/
namespace FirmwareWorkspace

namespace Navigation

variable {snapshot : Snapshot} {file : FileId} {position : Position} {symbol : Symbol}

/-! ### Symbols at positions -/

/-- A symbol covers a position; both ends belong to it. -/
structure Covers (symbol : Symbol) (position : Position) : Prop where
  line : symbol.line = position.line
  start : symbol.startColumn ≤ position.column
  stop : position.column ≤ symbol.endColumn

theorem covers_of_symbolAt (found : symbolAt? snapshot file position = some symbol) :
    symbol ∈ snapshot.symbols.inFile file ∧ Covers symbol position := by
  rw [symbolAt?] at found
  have covers := List.find?_some found
  have ⟨line, start, stop⟩ := of_decide_eq_true covers
  exact ⟨List.mem_of_find?_eq_some found, line, start, stop⟩

/-- On a line of its own, a symbol is found at each position that it covers. -/
theorem symbolAt_of_covers (own : ((snapshot.symbols.inFile file).map (·.line)).Nodup)
    (member : symbol ∈ snapshot.symbols.inFile file) (covers : Covers symbol position) :
    symbolAt? snapshot file position = some symbol := by
  cases found : symbolAt? snapshot file position with
  | none =>
    rw [symbolAt?] at found
    have missed := List.find?_eq_none.mp found symbol member
    exact absurd (decide_eq_true ⟨covers.line, covers.start, covers.stop⟩) missed
  | some other =>
    have ⟨inside, reached⟩ := covers_of_symbolAt found
    have same := List.inj_on_of_nodup_map own inside member (reached.line.trans covers.line.symm)
    rw [same]

/-! ### Where paths lead -/

theorem targetsOf_path (isPath : symbol.kind.isPath = true) :
    targetsOf snapshot symbol = symbol.target.toList.map .top := by
  unfold targetsOf
  cases kind : symbol.kind with
  | inclusion | libraryClass | component | source | package | includeDirectory
  | libraryClassDeclaration => rfl
  | _ =>
    rw [kind] at isPath
    cases isPath

/-- A position in a path leads to the file that was found for it, if one was. -/
theorem goto_path (found : symbolAt? snapshot file position = some symbol)
    (isPath : symbol.kind.isPath = true) :
    goto snapshot file position = symbol.target.toList.map .top := by
  unfold goto
  rw [found]
  dsimp only
  rw [targetsOf_path isPath]
  cases symbol.target with
  | none | some => rfl

/-- The link that a path with a target is. -/
def linkOf (symbol : Symbol) (target : Path) : DocumentLink :=
  ⟨symbol.line, symbol.startColumn, symbol.endColumn, target,
    "Open " ++ symbol.kind.label ++ " '" ++ symbol.value ++ "'"⟩

theorem mem_links_iff (link : DocumentLink) :
    link ∈ links snapshot file ↔
      ∃ symbol ∈ snapshot.symbols.inFile file, symbol.kind.isPath = true ∧
        ∃ target, symbol.target = some target ∧ linkOf symbol target = link := by
  simp only [links, List.mem_filterMap, Option.ite_none_right_eq_some, Option.map_eq_some_iff,
    linkOf]

/-- A link leads to its target from each of its columns. -/
theorem goto_link (own : ((snapshot.symbols.inFile file).map (·.line)).Nodup)
    (link : DocumentLink) (listed : link ∈ links snapshot file) (column : Nat)
    (start : link.startColumn ≤ column) (stop : column ≤ link.endColumn) :
    goto snapshot file ⟨link.line, column⟩ = [.top link.target] := by
  obtain ⟨symbol, member, isPath, target, aimed, rfl⟩ := (mem_links_iff link).mp listed
  have covers : Covers symbol ⟨symbol.line, column⟩ := ⟨rfl, start, stop⟩
  have led := goto_path (symbolAt_of_covers own member covers) isPath
  rw [aimed] at led
  exact led

/-- A position in a path that leads anywhere lies in a link that leads there. -/
theorem exists_link (found : symbolAt? snapshot file position = some symbol)
    (isPath : symbol.kind.isPath = true) (place : GotoTarget)
    (leads : place ∈ goto snapshot file position) :
    ∃ link ∈ links snapshot file, link.line = position.line ∧
      link.startColumn ≤ position.column ∧ position.column ≤ link.endColumn ∧
      place = .top link.target := by
  rw [goto_path found isPath] at leads
  obtain ⟨target, aimed, rfl⟩ := List.mem_map.mp leads
  have ⟨member, covers⟩ := covers_of_symbolAt found
  refine ⟨linkOf symbol target, ?_, covers.line, covers.start, covers.stop, rfl⟩
  exact (mem_links_iff _).mpr ⟨symbol, member, isPath, target, Option.mem_toList.mp aimed, rfl⟩

end Navigation

/-! ### Published documents -/

/-- The symbols of a document stand where they say, and links and places agree about them. -/
structure Document.IsPlaced (document : Document) (system : FileSystem) (snapshot : Snapshot) :
    Prop where
  indexed : snapshot.symbols.inFile document.file = document.symbols
  /-- No two symbols share a line. -/
  lines : (document.symbols.map (·.line)).Nodup
  /-- The bytes between the columns of a symbol are those of its text. -/
  spans : ∃ text, system.read document.path = .ok text ∧ ∀ symbol ∈ document.symbols,
    ∃ raw, (Text.lines text)[symbol.line]? = some raw ∧
      raw.toUTF8.extract symbol.startColumn symbol.endColumn = symbol.detail.toUTF8
  /-- A link leads to its target from each of its columns. -/
  links : ∀ link ∈ Navigation.links snapshot document.file, ∀ column,
    link.startColumn ≤ column → column ≤ link.endColumn →
      Navigation.goto snapshot document.file ⟨link.line, column⟩ = [.top link.target]
  /-- A position in a path that leads anywhere lies in a link that leads there. -/
  places : ∀ position symbol, Navigation.symbolAt? snapshot document.file position = some symbol →
    symbol.kind.isPath = true → ∀ place ∈ Navigation.goto snapshot document.file position,
      ∃ link ∈ Navigation.links snapshot document.file, link.line = position.line ∧
        link.startColumn ≤ position.column ∧ position.column ≤ link.endColumn ∧
        place = .top link.target

/-- A document with one pass is that pass. -/
theorem eq_document_of_single (passes : List FilePass) (document : Document)
    (given : documentOf passes = some document) (single : document.passes = 1) :
    ∃ pass ∈ passes, document = Reader.document pass := by
  have counted := (documentOf_passes passes document given).1
  obtain ⟨pass, rfl⟩ := List.length_eq_one_iff.mp (counted.symm.trans single)
  exact ⟨pass, .head _, (Option.some.inj given).symm⟩

/-- The symbols of a published document with a single pass are where they say, and links and places
agree about them. -/
theorem Workspace.load_isPlaced (workspace : Workspace) (system : FileSystem)
    (cancellation : Cancellation) (snapshot : Snapshot)
    (published : (workspace.load system cancellation).1.result = .ok snapshot) (file : FileId)
    (document : Document) (found : snapshot.document? file = some document)
    (single : document.passes = 1) :
    document.file = file ∧ document.IsPlaced system snapshot := by
  have reflects := load_reflects workspace system cancellation snapshot published
  have same := List.find?_some found
  have filed : document.file = file := of_decide_eq_true same
  have indexed : snapshot.symbols.inFile document.file = document.symbols := by
    rw [filed, reflects.indexed.symbols, found]
    rfl
  -- The only pass is one of some unit, so it quotes its file.
  obtain ⟨pass, member, rfl⟩ := eq_document_of_single _ document
    ((reflects.documents file).symm.trans found) single
  obtain ⟨files, path, passed⟩ := exists_of_mem_lastPasses _ _ _ _ file pass member
  obtain ⟨text, last, readable, quotes⟩ := Reader.quotes_of_mem_passes _ _ _ _ _ _ pass passed
  have lines : ((Reader.document pass).symbols.map (·.line)).Nodup :=
    List.pairwise_map.mpr (quotes.ascending.imp Nat.ne_of_lt)
  have own : ((snapshot.symbols.inFile (Reader.document pass).file).map (·.line)).Nodup := by
    rw [indexed]
    exact lines
  refine ⟨filed, indexed, lines, ⟨text, readable, fun symbol inside => ?_⟩, ?_, ?_⟩
  · obtain ⟨raw, there, stands⟩ := quotes.quoted symbol inside
    exact ⟨raw, there, stands.extract⟩
  · exact Navigation.goto_link own
  · exact fun position symbol => Navigation.exists_link

/-- A platform with an indented include, a number sign in quotes, and a wide blank in front of a
name outside ASCII. -/
def indentedPaths : FileSystem :=
  .memory (.ofList [(⟨"/ws/P.dsc"⟩,
      "  !include \"C#1.inc\" # shared\n[Components]\n\u3000M\u00e9.inf # module\n"),
    (⟨"/ws/C#1.inc"⟩, ""), (⟨"/ws/M\u00e9.inf"⟩, "")])

/-- Both paths are links from the first to the last byte of their code. -/
theorem indentedPaths_isPlaced :
    ∃ snapshot document, (singlePlatform.load indentedPaths .never).1.result = .ok snapshot ∧
      snapshot.document? ⟨0⟩ = some document ∧ document.passes = 1 ∧
      (Navigation.links snapshot ⟨0⟩).map (fun link => (link.line, link.startColumn,
        link.endColumn, link.target)) =
        [(0, 2, 20, ⟨"/ws/C#1.inc"⟩), (2, 3, 10, ⟨"/ws/M\u00e9.inf"⟩)] ∧
      document.IsPlaced indentedPaths snapshot := by
  have loaded : (singlePlatform.load indentedPaths .never).1.result.toOption.bind (fun snapshot =>
      (snapshot.document? ⟨0⟩).map fun document => (document.passes,
        (Navigation.links snapshot ⟨0⟩).map fun link => (link.line, link.startColumn,
          link.endColumn, link.target))) =
      some (1, [(0, 2, 20, ⟨"/ws/C#1.inc"⟩), (2, 3, 10, ⟨"/ws/M\u00e9.inf"⟩)]) := by
    decide +kernel
  cases published : (singlePlatform.load indentedPaths .never).1.result with
  | error failure =>
    rw [published] at loaded
    cases loaded
  | ok snapshot =>
    rw [published] at loaded
    obtain ⟨document, found, seen⟩ := Option.map_eq_some_iff.mp loaded
    have single : document.passes = 1 := congrArg Prod.fst seen
    exact ⟨snapshot, document, rfl, found, single, congrArg Prod.snd seen,
      (Workspace.load_isPlaced _ _ _ snapshot published ⟨0⟩ document found single).2⟩

end FirmwareWorkspace
