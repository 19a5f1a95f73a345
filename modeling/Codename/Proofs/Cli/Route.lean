import Codename.Proofs.Cli.Commands

/-!
# The way to a mapping

A mapping is given by its file, or found in the catalog by the name of its schema. Both ways read
the same file and accept the same contents, and so a command that uses the mapping ends alike. A
command that finds no mapping has written no output; at most its session has remembered a selection.

## Main definitions

* `Alike` — two runs that end alike.

## Main statements

* `toOption_mappingOf` — what a file holds for a session and what it holds on its own.
* `findMapping_routes` — the mapping of a file and of a schema that is located there.
* `run_routes` — runs that go one way and the other, and runs without a mapping.
-/

namespace Codename.Cli

open Codename.Files (FileError Tree)
open Codename.Session (Service Situation readValue)

/-- Two runs end alike: the exit code, the standard output and the files are the same, and if they
succeed, so is all that they write. -/
structure Alike (here there : Output × Tree) : Prop where
  code : here.1.code = there.1.code
  out : here.1.out = there.1.out
  files : here.2 = there.2
  output : here.1.code = 0 → here.1 = there.1

variable {stdin : ByteArray} {tree : Tree} {service : Service (StateM Tree)} {input : Input}
  {catalog name path : String} {listed : Catalog} {entry : Catalog.Entry} {failure : Failure}

/-! ### The mapping in a file -/

/-- A session finds a mapping in the content of a file if there is one, and the same one. -/
theorem toOption_mappingOf (entry : Catalog.Entry) (tell : Session.FileProblem → String)
    (content : Except FileError String) :
    (Service.mappingOf entry ((readValue Mapping.Document.reader content).mapError tell)).toOption =
      (Mapping.ofContent content).toOption := by
  cases content with
  | error error => rfl
  | ok text =>
    rw [readValue, Mapping.ofContent, Mapping.ofText]
    cases Mapping.Document.reader.parse text with
    | error fault => rfl
    | ok document =>
      show ((Mapping.ofDocument document).mapError _).toOption = _
      dsimp only
      cases Mapping.ofDocument document with
      | error use => rfl
      | ok mapping => rfl

theorem toOption_mapError {ε ε' α : Type} (f : ε → ε') (answer : Except ε α) :
    (answer.mapError f).toOption = answer.toOption := by
  cases answer with
  | error error => rfl
  | ok a => rfl

/-- The mapping of a schema, for a session that starts and forgets its selection, is that in the
file which the catalog locates. -/
theorem toOption_mapping_on (stdin : ByteArray)
    (hcatalog : readValue Catalog.reader (tree.read catalog) = .ok listed)
    (hentry : listed.find? name = some entry) :
    (((Service.ofConfig (Tree.host stdin) (.inMemory catalog)).mapping (some name)).on
      (.start tree)).1.toOption =
      (Mapping.ofContent (tree.read (Path.resolve catalog entry.locator))).toOption := by
  let service := Service.ofConfig (Tree.host stdin) (.inMemory catalog)
  let ready := ((Situation.start tree).asking service).opening service listed
  have hload : (service.source.loadCatalog tree).1 = .ok listed := by
    show (readValue Catalog.reader (tree.read catalog)).mapError _ = _
    rw [hcatalog]
    rfl
  have hready : service.catalog.on (.start tree) = (.ok listed, ready) :=
    Service.catalog_on_of_ok rfl (Prod.ext hload rfl)
  have hmissing : ready.state.mappings.get? entry.name = none := by
    rw [Situation.opening_mappings]
    rfl
  have hworld : ready.world = tree := by
    have hconfined := (Service.closed_confines stdin (.inMemory catalog) tree).invariant.catalog_on
      (s := .start tree) rfl
    rwa [hready] at hconfined
  calc ((service.mapping (some name)).on (.start tree)).1.toOption
      = ((service.load entry).on ready).1.toOption := by rw [Service.fst_mapping_on hready hentry]
    _ = (Service.mappingOf entry (service.source.loadDocument entry tree).1).toOption := by
      rw [Service.fst_load_on hmissing, hworld]
    _ = _ := toOption_mappingOf entry _ _

/-- A file gives the same mapping as a schema that is located there, and nothing is changed. -/
theorem findMapping_routes (stdin : ByteArray)
    (hcatalog : readValue Catalog.reader (tree.read catalog) = .ok listed)
    (hentry : listed.find? name = some entry)
    (hpath : tree.read path = tree.read (Path.resolve catalog entry.locator))
    (file? : Option String) :
    let service := Service.ofConfig (Tree.host stdin) (.inMemory catalog)
    let direct := findMapping (Tree.host stdin) service ⟨file?, none, some path⟩ tree
    let routed := findMapping (Tree.host stdin) service ⟨file?, some name, none⟩ tree
    direct.1.toOption = routed.1.toOption ∧ direct.2 = tree ∧ routed.2 = tree := by
  intro service direct routed
  refine ⟨?_, rfl, Service.confines_mapping_on stdin (.inMemory catalog) tree (some name)⟩
  calc direct.1.toOption
      = (Mapping.ofContent (tree.read path)).toOption := toOption_mapError _ _
    _ = (Mapping.ofContent (tree.read (Path.resolve catalog entry.locator))).toOption := by
      rw [hpath]
    _ = ((service.mapping (some name)).on (.start tree)).1.toOption :=
      (toOption_mapping_on stdin hcatalog hentry).symm
    _ = routed.1.toOption := (toOption_mapError _ _).symm

/-! ### Runs that go either way -/

theorem output_ofFailure (catalog : String) (failure : Failure) :
    (Ending.ofFailure failure).output catalog =
      ⟨1, "", "" ++ failure.warning catalog ++ failure.report⟩ :=
  rfl

/-- Commands that find the same mapping have the same ending, and those that find none fail. -/
theorem command_routes (use : Use) (first second : Input) (hfile : first.file? = second.file?)
    (htext : use.isCheck = true → inputText stdin tree second.file? ≠ .ok "")
    (hfound : (findMapping (Tree.host stdin) service first tree).1.toOption =
      (findMapping (Tree.host stdin) service second tree).1.toOption)
    (hfirst : (findMapping (Tree.host stdin) service first tree).2 = tree)
    (hsecond : (findMapping (Tree.host stdin) service second tree).2 = tree) :
    (use.command first).run (Tree.host stdin) service tree =
        (use.command second).run (Tree.host stdin) service tree ∨
      ∃ failure failure', (use.command first).run (Tree.host stdin) service tree =
          (.ofFailure failure, tree) ∧
        (use.command second).run (Tree.host stdin) service tree = (.ofFailure failure', tree) := by
  rw [use.run_command (hfile ▸ htext), use.run_command htext, hfile]
  cases inputText stdin tree second.file? with
  | error error => exact .inl rfl
  | ok text =>
    generalize findMapping (Tree.host stdin) service first tree = found at hfound hfirst
    generalize findMapping (Tree.host stdin) service second tree = found' at hfound hsecond
    obtain ⟨failure | mapping, after⟩ := found
    · obtain ⟨failure' | mapping', after'⟩ := found'
      · obtain rfl : after = tree := hfirst
        obtain rfl : after' = after := hsecond
        exact .inr ⟨failure, failure', rfl, rfl⟩
      · cases hfound
    · obtain ⟨failure' | mapping', after'⟩ := found'
      · cases hfound
      · obtain rfl : mapping = mapping' := Option.some.inj hfound
        obtain rfl : after = tree := hfirst
        obtain rfl : after' = after := hsecond
        exact .inl rfl

/-- A command that finds no mapping fails, and leaves the files as the search for it left them. -/
theorem command_without_mapping (use : Use) (huse : use.isCheck = false)
    (hfailed : (findMapping (Tree.host stdin) service input tree).1 = .error failure) :
    ∃ failure' after, (use.command input).run (Tree.host stdin) service tree =
        (.ofFailure failure', after) ∧
      (after = tree ∨ after = (findMapping (Tree.host stdin) service input tree).2) := by
  rw [use.run_command (by simp [huse])]
  cases inputText stdin tree input.file? with
  | error error => exact ⟨_, _, rfl, .inl rfl⟩
  | ok text =>
    generalize findMapping (Tree.host stdin) service input tree = found at hfailed
    obtain ⟨failure' | mapping, after⟩ := found
    · exact ⟨_, _, rfl, .inr rfl⟩
    · cases hfailed

/-- The search for a mapping changes no more than the state file, and nothing if the mapping is
given by its file. -/
theorem confines_findMapping (stdin : ByteArray) (config : Config) (input : Input) (tree : Tree) :
    let after := (findMapping (Tree.host stdin) (Service.ofConfig (Tree.host stdin) config)
      input tree).2
    config.Confines tree after ∧ (input.mapping?.isSome = true → after = tree) := by
  intro after
  have hon := congrArg Prod.snd
    (findMapping_on stdin (Service.ofConfig (Tree.host stdin) config) input tree)
  cases hmapping : input.mapping? with
  | some path =>
    have hafter : after = tree := by rwa [hmapping] at hon
    rw [hafter]
    exact ⟨.refl config tree, fun _ => rfl⟩
  | none =>
    have hafter : after = (callFresh
        ((Service.ofConfig (Tree.host stdin) config).mapping input.schema?) tree).2 := by
      rwa [hmapping] at hon
    rw [hafter]
    exact ⟨Service.confines_mapping_on stdin config tree input.schema?, nofun⟩

/-- Let a catalog be there, and let the first of its schemas with a name be located in the same file
as a path. Then, for a session that forgets its selection, every command that uses a mapping ends
alike whether it is given the path or the name, unless it checks the empty text.

To encrypt or decrypt without a mapping leaves the standard output empty, and does not write the
file for the output. The files stay as they are if the selection is forgotten or the mapping is
given by its file. Else the session can have selected a schema before it failed, and remembers it,
so that the state file alone can change. The file for the output thus changes in one case only, that
it is itself the state file of a session that remembers its selection. -/
theorem run_routes (environment : Environment) (stdin : ByteArray) (tree : Tree) :
    (∀ (catalog name path : String) (listed : Catalog) (entry : Catalog.Entry),
      readValue Catalog.reader (tree.read catalog) = .ok listed →
      listed.find? name = some entry →
      tree.read path = tree.read (Path.resolve catalog entry.locator) →
      ∀ (use : Use) (file? : Option String) (direct routed : List String),
        parse environment direct =
          .ok ⟨.inMemory catalog, use.command ⟨file?, none, some path⟩⟩ →
        parse environment routed =
          .ok ⟨.inMemory catalog, use.command ⟨file?, some name, none⟩⟩ →
        (use.isCheck = true → inputText stdin tree file? ≠ .ok "") →
          Alike (run (Tree.host stdin) environment direct tree)
            (run (Tree.host stdin) environment routed tree)) ∧
    ∀ (use : Use) (config : Config) (input : Input) (arguments : List String) (failure : Failure),
      use.isCheck = false →
      parse environment arguments = .ok ⟨config, use.command input⟩ →
      (findMapping (Tree.host stdin) (Service.ofConfig (Tree.host stdin) config) input tree).1 =
        .error failure →
        let left := run (Tree.host stdin) environment arguments tree
        left.1.code = 1 ∧ left.1.out = "" ∧
          (config.stateFile? = none ∨ input.mapping?.isSome = true → left.2 = tree) ∧
          ∀ state, config.stateFile? = some state → tree.ChangesOnly state left.2 := by
  constructor
  · intro catalog name path listed entry hcatalog hentry hpath use file? direct routed hdirect
      hrouted htext
    obtain ⟨hfound, hfirst, hsecond⟩ := findMapping_routes stdin hcatalog hentry hpath file?
    rw [run_on stdin tree hdirect, run_on stdin tree hrouted]
    obtain hsame | ⟨failure, failure', hfailed, hfailed'⟩ :=
      command_routes use ⟨file?, none, some path⟩ ⟨file?, some name, none⟩ rfl htext hfound hfirst
        hsecond
    · dsimp only
      rw [hsame]
      exact ⟨rfl, rfl, rfl, fun _ => rfl⟩
    · dsimp only
      rw [hfailed, hfailed', output_ofFailure, output_ofFailure]
      exact ⟨rfl, rfl, rfl, nofun⟩
  · intro use config input arguments failure huse hparse hfailed left
    obtain ⟨failure', after, hended, hafter⟩ := command_without_mapping use huse hfailed
    obtain ⟨hconfined, hgiven⟩ := confines_findMapping stdin config input tree
    have hleft : left = ((Ending.ofFailure failure').output config.catalog, after) := by
      refine (run_on stdin tree hparse).trans ?_
      dsimp only
      rw [hended]
    have hkept : config.Confines tree after ∧ (input.mapping?.isSome = true → after = tree) := by
      obtain rfl | rfl := hafter
      · exact ⟨.refl config after, fun _ => rfl⟩
      · exact ⟨hconfined, hgiven⟩
    rw [hleft]
    refine ⟨rfl, rfl, ?_, ?_⟩
    · rintro (hnone | hmapping)
      · exact hkept.1.eq_of_none hnone
      · exact hkept.2 hmapping
    · intro state hstate
      exact hkept.1.changesOnly hstate

/-- A tree with a catalog that lists a schema twice, with the mapping of the first and a query. -/
def office : Tree where
  nodes := [
    (["catalog.json"], .file "[[\"crm\", \"maps/crm.json\"], [\"crm\", \"old.json\"]]".toUTF8),
    (["maps"], .directory),
    (["maps", "crm.json"], .file
      "[\x7b\"Orders\": \"t1\"\x7d, \x7b\"t1\": \x7b\"Total\": \"c1\"\x7d\x7d]".toUTF8),
    (["query.sql"], .file "SELECT Total FROM Orders".toUTF8)]
  current := []

/-- A query is encrypted into a file and is checked with the mapping of a file and of a schema, and
a schema that is not listed is asked for. -/
theorem run_routes_office :
    let run := run (Tree.host .empty) ⟨none, none, none, none⟩
    let program := ["--catalog=catalog.json", "--no-persist"]
    let encrypt (way : String) := run (program ++ ["encrypt", way, "query.sql", "-oout.sql"]) office
    let check (way : String) := run (program ++ ["check", way, "query.sql"]) office
    let unlisted := ["--catalog=catalog.json", "--state=cache/last.json", "decrypt",
      "--schema=ghost", "query.sql", "-oquery.sql"]
    let missed := run unlisted office
    Alike (encrypt "--mapping=./maps/crm.json") (encrypt "--schema=crm") ∧
      (encrypt "--schema=crm").2.read "out.sql" = .ok "SELECT c1 FROM t1" ∧
      Alike (check "--mapping=./maps/crm.json") (check "--schema=crm") ∧
      (check "--schema=crm").1.out = " NOT ENCRYPTED\n" ∧
      missed.1.out = "" ∧ office.ChangesOnly "cache/last.json" missed.2 := by
  intro run program encrypt check unlisted missed
  obtain ⟨hroutes, hwithout⟩ := run_routes ⟨none, none, none, none⟩ .empty office
  have hcatalog : readValue Catalog.reader (office.read "catalog.json") =
      .ok ⟨[⟨"crm", "maps/crm.json", false⟩, ⟨"crm", "old.json", false⟩]⟩ := by decide +kernel
  have halike := hroutes "catalog.json" "crm" "./maps/crm.json" _ ⟨"crm", "maps/crm.json", false⟩
    hcatalog (by decide) (by decide +kernel)
  refine ⟨?_, by decide +kernel, ?_, by decide +kernel, ?_⟩
  · exact halike (.encrypt (some "out.sql")) (some "query.sql") _ _ (by decide +kernel)
      (by decide +kernel) nofun
  · exact halike (.check false false) (some "query.sql") _ _ (by decide +kernel)
      (by decide +kernel) (fun _ => by decide +kernel)
  · obtain ⟨-, hout, -, hkept⟩ := hwithout (.decrypt (some "query.sql"))
      ⟨"catalog.json", some "cache/last.json"⟩ ⟨some "query.sql", some "ghost", none⟩ unlisted
      (.session (.unknownSchema "ghost")) rfl (by decide +kernel) (by decide +kernel)
    exact ⟨hout, hkept _ rfl⟩

end Codename.Cli
