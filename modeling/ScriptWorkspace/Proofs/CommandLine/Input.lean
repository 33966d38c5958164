import ScriptWorkspace.Proofs.DryRun.CommandLines
import ScriptWorkspace.Proofs.Session.Input
import ScriptWorkspace.Proofs.Session.Reading

/-
  Scripts that are read from the input.

  The lines of the input end in line feeds whatever they ended
  in, while a file is read as it is. So the same bytes are the
  same script from both if and only if there is no carriage
  return among them. Then a script comes to the same package,
  imported or run, wherever it is read from.

  Main declarations:
    * `Action.plainLineEnds_eq_self_iff`
    * `CommandLine.OffersTwice`
    * `CommandLine.EndAlike`
    * `CommandLine.EndAlike.readScript_bind`
    * `CommandLine.reads_alike_iff_no_return`
-/

namespace ScriptWorkspace

open ScriptWorkspace.Action

variable {ω α β : Type}
variable {outside : Outside ω}

------------------------------------------------------------
-- Line Ends
------------------------------------------------------------

/- No carriage return is left in an input. -/
theorem Action.not_mem_plainLineEnds (text : Text) :
    '\r' ∉ plainLineEnds text := by
  fun_induction plainLineEnds text with
  | case1 rest ih => simpa using ih
  | case2 rest _ ih => simpa using ih
  | case3 c rest _ hOther ih =>
      rw [List.mem_cons, not_or]
      exact ⟨fun hSame => hOther hSame.symm, ih⟩
  | case4 => exact List.not_mem_nil

/- An input is as it was if it has no carriage return. -/
theorem Action.plainLineEnds_eq_self_iff
    {text : Text} :
    plainLineEnds text = text ↔ '\r' ∉ text := by
  constructor
  · intro hSame
    rw [← hSame]
    exact not_mem_plainLineEnds text
  · intro hNone
    fun_induction plainLineEnds text with
    | case1 rest ih => simp at hNone
    | case2 rest _ ih => simp at hNone
    | case3 c rest _ hOther ih =>
        rw [List.mem_cons, not_or] at hNone
        rw [ih hNone.2]
    | case4 => rfl

namespace CommandLine

variable {bytes : List UInt8}
variable {script : Text}
variable {file : Path}
variable {session : Session ω}

------------------------------------------------------------
-- Reading
------------------------------------------------------------

/- The same bytes are the input and the content of a file. -/
structure OffersTwice
    (outside : Outside ω)
    (bytes : List UInt8)
    (file : Path)
    (session : Session ω) : Prop where
  input : session.input = inputOf bytes
  usable :
    Files.isUsable (outside.directory.append file) = true
  content :
    Storage.Calls.readFile session.tree
        outside.directory.names
        (outside.directory.append file) =
      .ok (.ofBytes bytes)

/- The script in the input is read with other line ends. -/
theorem perform_readScript_input
    (hOffers : OffersTwice outside bytes file session)
    (hScript : Utf8.decode bytes = .ok script) :
    (readScript none).perform outside session =
      (.ok (plainLineEnds script),
        session.withInput (.ok [])) := by
  have hInput : session.input = .ok (plainLineEnds script) := by
    rw [hOffers.input, inputOf, hScript]
    rfl
  rcases session with
    ⟨tree, world, input, log, calls, requests, out, err⟩
  cases hInput
  rfl

/- The script in a file is read as it is. -/
theorem perform_readScript_file
    (hOffers : OffersTwice outside bytes file session)
    (hScript : Utf8.decode bytes = .ok script) :
    (readScript (some file)).perform outside session =
      (.ok script, session) := by
  have hContent :
      Storage.Content.ofBytes bytes = .text script := by
    rw [Storage.Content.ofBytes, hScript]
  have hRead :
      (readScript (some file)).perform outside session =
        (Files.read (outside.directory.append file)).perform
          outside session :=
    rfl
  rw [hRead, Files.perform_read, Files.textAt,
    if_pos hOffers.usable, hOffers.content, hContent]
  rfl

------------------------------------------------------------
-- Runs
------------------------------------------------------------

/- Two runs end alike, but for what is left of the input. -/
def EndAlike
    (run other : Except Failure α × Session ω) : Prop :=
  ∃ input, run = (other.1, other.2.withInput input)

theorem EndAlike.refl
    (run : Except Failure α × Session ω) : EndAlike run run :=
  ⟨run.2.input, rfl⟩

/- Such runs leave the same files. -/
theorem EndAlike.tree_eq
    {run other : Except Failure α × Session ω}
    (hAlike : EndAlike run other) :
    run.2.tree = other.2.tree := by
  rcases hAlike with ⟨input, rfl⟩
  rfl

/- What follows runs that end alike does so as well. -/
theorem EndAlike.bind
    {action other : Action ω α}
    {next : α → Action ω β}
    (hAlike :
      EndAlike (action.perform outside session)
        (other.perform outside session))
    (hNext : ∀ result, (next result).IgnoresInput outside) :
    EndAlike ((action >>= next).perform outside session)
      ((other >>= next).perform outside session) := by
  rcases hAlike with ⟨input, hSame⟩
  rw [perform_bind, perform_bind, hSame]
  rcases other.perform outside session with
    ⟨result, between⟩
  cases result with
  | error failure => exact ⟨input, rfl⟩
  | ok result => exact ⟨input, hNext result between input⟩

/- A run goes on alike after the same operation. -/
theorem EndAlike.after
    {action : Action ω α}
    {next other : α → Action ω β}
    (hNext :
      ∀ result between,
        action.perform outside session =
            (.ok result, between) →
          EndAlike ((next result).perform outside between)
            ((other result).perform outside between)) :
    EndAlike ((action >>= next).perform outside session)
      ((action >>= other).perform outside session) := by
  rw [perform_bind, perform_bind]
  cases hRun : action.perform outside session with
  | mk result between =>
      cases result with
      | error failure => exact .refl _
      | ok result => exact hNext result between hRun

/- A failure is reported alike. -/
theorem EndAlike.reported
    {action other : Action ω ExitCode}
    (hAlike :
      EndAlike (action.perform outside session)
        (other.perform outside session)) :
    EndAlike
      ((CommandLine.reported action).perform outside session)
      ((CommandLine.reported other).perform outside
        session) := by
  rcases hAlike with ⟨input, hSame⟩
  rw [CommandLine.reported, CommandLine.reported,
    perform_tryCatch, perform_tryCatch, hSame]
  rcases other.perform outside session with ⟨result, after⟩
  cases result with
  | ok code => exact ⟨input, rfl⟩
  | error failure => exact ⟨input, rfl⟩

/- A script without carriage returns is read alike. -/
theorem EndAlike.readScript_bind
    {next : Text → Action ω α}
    (hOffers : OffersTwice outside bytes file session)
    (hScript : Utf8.decode bytes = .ok script)
    (hNone : '\r' ∉ script)
    (hNext : ∀ text, (next text).IgnoresInput outside) :
    EndAlike
      ((readScript none >>= next).perform outside session)
      ((readScript (some file) >>= next).perform outside
        session) := by
  refine EndAlike.bind ⟨.ok [], ?_⟩ hNext
  rw [perform_readScript_input hOffers hScript,
    perform_readScript_file hOffers hScript,
    plainLineEnds_eq_self_iff.mpr hNone]

------------------------------------------------------------
-- Commands
------------------------------------------------------------

/- A script that is imported. -/
theorem endAlike_importScript
    (globals : Globals)
    (path manifest : Option Path)
    (hScript : Utf8.decode bytes = .ok script)
    (hNone : '\r' ∉ script)
    (hOffers :
      ∀ found between,
        (metadata globals.color manifest).perform outside
              session =
            (.ok found, between) →
          OffersTwice outside bytes file between) :
    EndAlike
      ((importScript globals none path manifest).perform
        outside session)
      ((importScript globals (some file) path
          manifest).perform
        outside session) := by
  refine .after fun found between hRun => ?_
  refine
    .readScript_bind (hOffers found between hRun) hScript
      hNone fun text => ?_
  exact
    (onFiles_packageDirectory _ _).ignoresInput_bind fun _ =>
      (Workspace.onFiles_importScript _ _ _
          _).ignoresInput_bind
        fun _ => .writeError _

theorem ignoresInput_metadata
    (color : ColorChoice)
    (manifest : Option Path) :
    IgnoresInput outside (metadata color manifest) :=
  OnFiles.surroundings.ignoresInput_bind fun _ =>
    Cargo.ignoresInput_metadata _ _ _ _

/- A script that is run, after it has been read. -/
theorem ignoresInput_runScript
    (request : RunRequest)
    (script : Text) :
    IgnoresInput outside (do
      let manifest ← Action.ofExcept (manifestInside script)
      let settings ← loadSettings request.config false
      let workspace ← scriptWorkspace request settings
      unless ← Files.pathExists workspace.parent do
        Workspace.create workspace.parent false
      let found ← metadata request.color (some workspace)
      Workspace.requireVirtual found.root
      let package ←
        Workspace.registerScript found manifest script
          request.options.binary false
      Cargo.run
        (Cargo.runArguments package workspace
          request.arguments request.options)
        none false false) := by
  refine
    (OnFiles.ofExcept _).ignoresInput_bind fun manifest =>
      (onFiles_loadSettings _ _).ignoresInput_bind
        fun settings =>
          (onFiles_scriptWorkspace _ _).ignoresInput_bind
            fun workspace => ?_
  have hRest :
      IgnoresInput outside (do
        let found ← metadata request.color (some workspace)
        Workspace.requireVirtual found.root
        let package ←
          Workspace.registerScript found manifest script
            request.options.binary false
        Cargo.run
          (Cargo.runArguments package workspace
            request.arguments request.options)
          none false false) :=
    .bind (ignoresInput_metadata _ _) fun _ =>
      (Workspace.onFiles_requireVirtual _).ignoresInput_bind
        fun _ =>
          (Workspace.onFiles_registerScript _ _ _ _
              _).ignoresInput_bind
            fun _ => Cargo.ignoresInput_run _ _ _ _
  refine
    (Files.onFiles_pathExists _).ignoresInput_bind
      fun found => ?_
  cases found with
  | true => exact hRest
  | false =>
      exact
        (Workspace.onFiles_create _ _).ignoresInput_bind
          fun _ => hRest

theorem endAlike_runScript
    (request : RunRequest)
    (hScript : Utf8.decode bytes = .ok script)
    (hNone : '\r' ∉ script)
    (hOffers : OffersTwice outside bytes file session) :
    EndAlike
      ((RunRequest.perform
          { request with file := none }).perform outside
        session)
      ((RunRequest.perform
          { request with file := some file }).perform outside
        session) :=
  .readScript_bind hOffers hScript hNone
    (ignoresInput_runScript request)

/-
  Bytes that are a script are the same script in the input and
  in a file if and only if no line of it has a carriage
  return. If so, importing the script and running it do the
  same with both, to the files and to all else.
-/
theorem reads_alike_iff_no_return
    (outside : Outside ω)
    (file : Path)
    {bytes : List UInt8}
    {script : Text}
    (hScript : Utf8.decode bytes = .ok script) :
    (∀ session : Session ω,
        OffersTwice outside bytes file session →
          (((readScript none).perform outside session).1 =
              ((readScript (some file)).perform outside
                session).1 ↔
            '\r' ∉ script)) ∧
      ('\r' ∉ script →
        (∀ (globals : Globals) (path manifest : Option Path)
            (session : Session ω),
          (∀ found between,
            (metadata globals.color manifest).perform outside
                  session =
                (.ok found, between) →
              OffersTwice outside bytes file between) →
            EndAlike
              ((Request.perform
                  (.manage globals
                    (.import none path manifest))).perform
                outside session)
              ((Request.perform
                  (.manage globals
                    (.import (some file) path
                      manifest))).perform
                outside session)) ∧
          ∀ (request : RunRequest) (session : Session ω),
            OffersTwice outside bytes file session →
              EndAlike
                ((Request.perform
                    (.runScript
                      { request with file := none })).perform
                  outside session)
                ((Request.perform
                    (.runScript
                      { request with
                        file := some file })).perform
                  outside session)) := by
  refine ⟨fun session hOffers => ?_, fun hNone => ⟨?_, ?_⟩⟩
  · rw [perform_readScript_input hOffers hScript,
      perform_readScript_file hOffers hScript,
      ← plainLineEnds_eq_self_iff]
    exact ⟨Except.ok.inj, congrArg Except.ok⟩
  · intro globals path manifest session hOffers
    refine
      .reported
        (.bind ?_ fun _ => (OnFiles.pure _).ignoresInput)
    exact
      endAlike_importScript globals path manifest hScript
        hNone hOffers
  · intro request session hOffers
    exact
      .reported
        (endAlike_runScript request hScript hNone hOffers)

/- A script in the input and in a file of a workspace. -/
def offered (script : Text) : Session Unit :=
  { start with
    tree := start.tree.set ["work", "hello.rs"]
      (.file (.text script))
    input := inputOf (Utf8.encode script) }

/- The command that makes a package of a script. -/
def importing (file : Option Path) : Request :=
  .manage Globals.usual (.import file none none)

/- The source that a request leaves in the package `hello`. -/
def sourceAfter
    (request : Request)
    (session : Session Unit) : Option Storage.Node :=
  (request.perform.perform surroundings session).2.tree.find?
    ["work", "hello", "src", "main.rs"]

/- A script with carriage returns loses them in the input. -/
theorem returns_lost_in_input :
    let script : Text :=
      ("//! ```cargo\r\n//! [package]\r\n" ++
          "//! name = \"hello\"\r\n//! ```\r\n" :
        String).toList
    let source : Text :=
      ("//! ```cargo\r\n//! # Leave blank.\r\n" ++
          "//! ```\r\n" :
        String).toList
    sourceAfter (importing (some (Path.ofText "hello.rs")))
          (offered script) =
        some (.file (.text source)) ∧
      sourceAfter (importing none) (offered script) =
        some (.file (.text (plainLineEnds source))) ∧
      plainLineEnds source ≠ source := by
  decide +kernel

/- A script without carriage returns makes one package. -/
theorem reads_alike_iff_no_return_hello :
    let script : Text :=
      ("//! ```cargo\n//! [package]\n" ++
          "//! name = \"hello\"\n//! ```\n" :
        String).toList
    Utf8.decode (Utf8.encode script) = .ok script ∧
      (sourceAfter (importing none)
          (offered script)).isSome = true ∧
      sourceAfter (importing none) (offered script) =
        sourceAfter
          (importing (some (Path.ofText "hello.rs")))
          (offered script) := by
  intro script
  have hScript :
      Utf8.decode (Utf8.encode script) = .ok script := by
    decide +kernel
  have hNone : '\r' ∉ script := by
    decide
  have hOffers :
      ∀ found between,
        (metadata Globals.usual.color none).perform
              surroundings (offered script) =
            (.ok found, between) →
          OffersTwice surroundings (Utf8.encode script)
            (Path.ofText "hello.rs") between := by
    intro found between hRun
    have hBetween :
        between =
          ((metadata Globals.usual.color none).perform
            surroundings (offered script)).2 := by
      rw [hRun]
    have hInput : between.input = (offered script).input := by
      rw [hBetween]
      exact (ignoresInput_metadata _ _).input_eq _
    have hTree : between.tree = (offered script).tree := by
      rw [hBetween]
      decide +kernel
    exact
      ⟨hInput, by decide, by rw [hTree]; decide +kernel⟩
  have hAlike :=
    ((reads_alike_iff_no_return surroundings
            (Path.ofText "hello.rs") hScript).2
          hNone).1
      Globals.usual none none (offered script) hOffers
  refine ⟨hScript, by decide +kernel, ?_⟩
  rw [sourceAfter, sourceAfter, importing, importing,
    hAlike.tree_eq]

end CommandLine

end ScriptWorkspace
