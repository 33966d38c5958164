import ScriptWorkspace.Proofs.DryRun.CommandLines
import ScriptWorkspace.Proofs.Session.Calls
import ScriptWorkspace.Proofs.Workspace.Registration

/-
  Scripts that are run.

  What comes before a script is run can fail at each step, and
  then nothing is run and the program ends with a code that is
  not nought. Otherwise there is one run, of the package that
  the script is kept as, when the files of that package hold
  the script and its manifest and the workspace is virtual.
  The program ends with the code of the run.

  Main declarations:
    * `CommandLine.RunRequest.prepare`
    * `CommandLine.RunRequest.perform_eq`
    * `CommandLine.Ready.IsPrepared`
    * `CommandLine.RunRequest.Ends`
    * `CommandLine.script_is_current_when_run`
-/

namespace ScriptWorkspace

open ScriptWorkspace.Action

variable {ω : Type}
variable {outside : Outside ω}

namespace CommandLine

variable {session after : Session ω}
variable {request : RunRequest}

------------------------------------------------------------
-- Preparation
------------------------------------------------------------

/- What is known when a script is about to be registered. -/
structure Ready where
  script : Text
  manifest : Text
  workspace : Path
  found : Cargo.Metadata

/- The directory of a workspace is there, or is made. -/
def provide (workspace : Path) : Action ω Unit := do
  unless ← Files.pathExists workspace.parent do
    Workspace.create workspace.parent false

/- All that is done before the build tool is called. -/
def RunRequest.locate
    (request : RunRequest) : Action ω (Text × Text × Path) :=
  do
  let script ← readScript request.file
  let manifest ← Action.ofExcept (manifestInside script)
  let settings ← loadSettings request.config false
  let workspace ← scriptWorkspace request settings
  provide workspace
  return (script, manifest, workspace)

/- All that is done before a script is registered. -/
def RunRequest.prepare
    (request : RunRequest) : Action ω Ready := do
  let (script, manifest, workspace) ← request.locate
  let found ← metadata request.color (some workspace)
  Workspace.requireVirtual found.root
  return { script, manifest, workspace, found }

/- The words that run a package for a request. -/
def RunRequest.runWords
    (request : RunRequest)
    (ready : Ready)
    (package : Text) : List OsText :=
  Cargo.runArguments package ready.workspace
    request.arguments request.options

/- A script is prepared for, registered and run. -/
theorem RunRequest.perform_eq (request : RunRequest) :
    (request.perform : Action ω ExitCode) =
      request.prepare >>= fun ready =>
        Workspace.registerScript ready.found ready.manifest
            ready.script request.options.binary false >>=
          fun package =>
            Cargo.run (request.runWords ready package) none
              false false := by
  unfold perform prepare locate provide
  simp only [bind_assoc, pure_bind]
  refine bind_congr fun script => bind_congr fun manifest => ?_
  refine
    bind_congr fun settings => bind_congr fun workspace => ?_
  refine bind_congr fun found => ?_
  cases found with
  | true => rfl
  | false => rfl

------------------------------------------------------------
-- Calls That Are Made
------------------------------------------------------------

theorem onFiles_provide (workspace : Path) :
    OnFiles (provide workspace : Action ω Unit) := by
  refine .bind (Files.onFiles_pathExists _) fun found => ?_
  split
  · exact .pure ()
  · exact Workspace.onFiles_create _ _

theorem callsNothing_locate
    (outside : Outside ω)
    (request : RunRequest) :
    CallsNothing outside request.locate :=
  .bind (.of_onlyAsks (onlyAsks_readScript _)) fun _ =>
    OnFiles.callsNothing <|
      .bind (.ofExcept _) fun _ =>
        .bind (onFiles_loadSettings _ _) fun _ =>
          .bind (onFiles_scriptWorkspace _ _) fun _ =>
            .bind_pure (onFiles_provide _)

/- The call that a request asks for metadata with. -/
def RunRequest.asking
    (outside : Outside ω)
    (request : RunRequest)
    (workspace : Path) : Invocation :=
  Cargo.asking outside (some workspace) request.color.word

theorem RunRequest.asksMetadata_of_mem
    {workspace : Path} :
    ∀ call ∈ [request.asking outside workspace],
      outside.AsksMetadata call := by
  intro call hMem
  cases List.mem_singleton.mp hMem
  exact ⟨_, _, rfl⟩

theorem RunRequest.calls_of_asking
    (outside : Outside ω)
    (request : RunRequest)
    (workspace : Path)
    (session : Session ω) :
    ((metadata request.color (some workspace)).perform
        outside session).2.calls =
      session.calls ++ [request.asking outside workspace] :=
  Cargo.calls_of_metadata (some workspace) request.color.word
    session

/- What is prepared is known from the script and the tree. -/
structure Ready.IsPrepared
    (outside : Outside ω)
    (request : RunRequest)
    (session : Session ω)
    (ready : Ready)
    (prepared : Session ω) : Prop where
  script :
    ((readScript request.file).perform outside session).1 =
      .ok ready.script
  manifest : Script.extract ready.script = .ok ready.manifest
  isVirtual :
    Workspace.IsVirtual outside.directory.names prepared.tree
      ready.found.root
  calls :
    prepared.calls =
      session.calls ++ [request.asking outside ready.workspace]

/- The script and the manifest are what they seem. -/
theorem read_of_locate
    {script manifest : Text}
    {workspace : Path}
    (hRun :
      request.locate.perform outside session =
        (.ok (script, manifest, workspace), after)) :
    ((readScript request.file).perform outside session).1 =
        .ok script ∧
      Script.extract script = .ok manifest := by
  rcases exists_of_perform_bind hRun with
    ⟨found, read, hRead, hRest⟩
  rcases exists_of_perform_bind hRest with
    ⟨inside, _, hInside, hRest⟩
  rcases exists_of_perform_bind hRest with
    ⟨settings, loaded, _, hRest⟩
  rcases exists_of_perform_bind hRest with
    ⟨place, placed, _, hRest⟩
  rcases exists_of_perform_bind hRest with
    ⟨_, provided, _, hDone⟩
  cases hDone
  rw [hRead]
  refine ⟨rfl, ?_⟩
  unfold manifestInside at hInside
  cases hExtract : Script.extract script with
  | error fault =>
      rw [hExtract] at hInside
      cases hInside
  | ok found =>
      rw [hExtract] at hInside
      cases hInside
      rfl

/- What succeeds in preparing is known. -/
theorem isPrepared_of_prepare
    {ready : Ready}
    (hRun :
      request.prepare.perform outside session =
        (.ok ready, after)) :
    ready.IsPrepared outside request session after := by
  rcases exists_of_perform_bind hRun with
    ⟨⟨script, manifest, workspace⟩, located, hLocate, hRest⟩
  rcases exists_of_perform_bind hRest with
    ⟨found, asked, hAsk, hRest⟩
  rcases exists_of_perform_bind hRest with
    ⟨_, checked, hCheck, hDone⟩
  cases hDone
  rcases read_of_locate hLocate with ⟨hScript, hManifest⟩
  rcases Workspace.isVirtual_of_requireVirtual hCheck with
    ⟨rfl, hVirtual⟩
  refine ⟨hScript, hManifest, hVirtual, ?_⟩
  have hLocated := callsNothing_locate outside request session
  have hAsked := request.calls_of_asking outside workspace located
  rw [hLocate] at hLocated
  rw [hAsk, hLocated] at hAsked
  exact hAsked

/- Nothing but metadata is asked for in preparing. -/
theorem exists_calls_of_prepare
    (outside : Outside ω)
    (request : RunRequest)
    (session : Session ω) :
    ∃ asked,
      (∀ call ∈ asked, outside.AsksMetadata call) ∧
        (request.prepare.perform outside session).2.calls =
          session.calls ++ asked := by
  have hLocated := callsNothing_locate outside request session
  rw [RunRequest.prepare, perform_bind]
  cases hLocate : request.locate.perform outside session with
  | mk result located =>
      rw [hLocate] at hLocated
      cases result with
      | error failure =>
          refine ⟨[], List.forall_mem_nil _, ?_⟩
          rwa [List.append_nil]
      | ok found =>
          rcases found with ⟨script, manifest, workspace⟩
          refine
            ⟨[request.asking outside workspace],
              RunRequest.asksMetadata_of_mem, ?_⟩
          dsimp only
          rw [CallsNothing.calls_bind located fun found =>
            (OnFiles.bind_pure
              (Workspace.onFiles_requireVirtual
                _)).callsNothing]
          rw [request.calls_of_asking, hLocated]

------------------------------------------------------------
-- Ends
------------------------------------------------------------

/- The code of the program, by what came of the run. -/
def codeOf : CallOutcome → ExitCode
  | .finished code _ _ => code
  | .notFound => .failure
  | .timedOut => .failure

/-
  How it ends that a script is run: nothing is run and the
  code is not nought, or there is one run, of the package that
  the script is kept as. At that moment the workspace has no
  package at its root, and the files of the member are those
  of the script that was read.
-/
inductive RunRequest.Ends
    (outside : Outside ω)
    (request : RunRequest)
    (session after : Session ω)
    (code : ExitCode) : Prop
  | refused
      {asked : List Invocation}
      (hCode : code ≠ .success)
      (hAsked : ∀ call ∈ asked, outside.AsksMetadata call)
      (hCalls : after.calls = session.calls ++ asked)
  | ran
      {ready : Ready}
      {package : Text}
      {prepared between : Session ω}
      {outcome : CallOutcome}
      (hPrepare :
        request.prepare.perform outside session =
          (.ok ready, prepared))
      (hScript :
        ((readScript request.file).perform outside
            session).1 =
          .ok ready.script)
      (hManifest :
        Script.extract ready.script = .ok ready.manifest)
      (hPackage :
        Manifest.packageName ready.manifest = .ok package)
      (hVirtual :
        Workspace.IsVirtual outside.directory.names
          between.tree ready.found.root)
      (hKept :
        Workspace.IsKept outside.directory.names between.tree
          (Workspace.memberManifest ready.found package)
          request.options.binary ready.manifest ready.script)
      (hCalls :
        after.calls =
          session.calls ++
            [request.asking outside ready.workspace,
              Cargo.running outside
                (request.runWords ready package)])
      (hCall :
        outside.call
            (Cargo.running outside
              (request.runWords ready package))
            between.world between.tree =
          (outcome, after.world, after.tree))
      (hCode : code = codeOf outcome)

/- The session in which a failure has been reported. -/
def failed
    (failure : Failure)
    (session : Session ω) : Session ω :=
  { session with
    errorOutput := session.errorOutput ++ failureText failure }

/- A failure is reported, and all else is left as it is. -/
def afterReport :
    Except Failure ExitCode × Session ω →
    Except Failure ExitCode × Session ω
  | (.ok code, after) => (.ok code, after)
  | (.error failure, after) =>
    (.ok .failure, failed failure after)

theorem perform_runScript
    (outside : Outside ω)
    (request : RunRequest)
    (session : Session ω) :
    (Request.perform (.runScript request)).perform outside
        session =
      afterReport (request.perform.perform outside session) :=
  by
  rw [Request.perform, reported, perform_tryCatch]
  rcases request.perform.perform outside session with
    ⟨result, after⟩
  cases result with
  | ok code => rfl
  | error failure => rfl

/- A script that is prepared is registered and run. -/
theorem exists_ends_of_prepare
    {ready : Ready}
    {prepared : Session ω}
    (hPrepare :
      request.prepare.perform outside session =
        (.ok ready, prepared))
    (hCan :
      ∀ name,
        Manifest.packageName ready.manifest = .ok name →
          Workspace.CanRegister outside.directory.names
            prepared.tree ready.found name
            request.options.binary) :
    ∃ code after,
      afterReport
          ((Workspace.registerScript ready.found
                ready.manifest ready.script
                request.options.binary false >>=
              fun package =>
                Cargo.run (request.runWords ready package)
                  none false false).perform
            outside prepared) =
        (.ok code, after) ∧
      request.Ends outside session after code := by
  have hReady := isPrepared_of_prepare hPrepare
  have hQuiet :
      CallsNothing outside
        (Workspace.registerScript ready.found ready.manifest
          ready.script request.options.binary false) :=
    (Workspace.onFiles_registerScript _ _ _ _ _).callsNothing
  have hCalls := (hQuiet prepared).trans hReady.calls
  rw [perform_bind]
  cases hRegister :
      (Workspace.registerScript ready.found ready.manifest
          ready.script request.options.binary false).perform
        outside prepared with
  | mk result between =>
      rw [hRegister] at hCalls
      cases result with
      | error failure =>
          exact
            ⟨_, _, rfl,
              .refused (by decide)
                RunRequest.asksMetadata_of_mem hCalls⟩
      | ok package =>
          rcases Workspace.isKept_of_registerScript
              hReady.isVirtual hCan hRegister with
            ⟨hPackage, hVirtual, hKept⟩
          rcases Cargo.perform_run outside
              (request.runWords ready package) between with
            ⟨outcome, ran, hRun, hCall, hMade⟩
          have hAll := hMade.trans (congrArg (· ++ _) hCalls)
          rw [List.append_assoc] at hAll
          dsimp only
          rw [hRun]
          -- A run that cannot begin fails like the rest.
          cases outcome with
          | finished code output errorOutput =>
              exact
                ⟨code, ran, rfl,
                  .ran hPrepare hReady.script hReady.manifest
                    hPackage hVirtual hKept hAll hCall rfl⟩
          | notFound =>
              exact
                ⟨.failure, failed _ ran, rfl,
                  .ran hPrepare hReady.script hReady.manifest
                    hPackage hVirtual hKept hAll hCall rfl⟩
          | timedOut =>
              exact
                ⟨.failure, failed _ ran, rfl,
                  .ran hPrepare hReady.script hReady.manifest
                    hPackage hVirtual hKept hAll hCall rfl⟩

/-
  Whatever comes of running a script: nothing is run and the
  code is not nought, or the script is run once, when it is
  what the workspace holds, and the code is that of the run.
  The workspace is in a tree without links.
-/
theorem script_is_current_when_run
    (outside : Outside ω)
    (session : Session ω)
    (request : RunRequest)
    (hCan :
      ∀ ready prepared name,
        request.prepare.perform outside session =
            (.ok ready, prepared) →
          Manifest.packageName ready.manifest = .ok name →
            Workspace.CanRegister outside.directory.names
              prepared.tree ready.found name
              request.options.binary) :
    ∃ code after,
      (Request.perform (.runScript request)).perform outside
          session =
        (.ok code, after) ∧
      request.Ends outside session after code := by
  rw [perform_runScript, request.perform_eq, perform_bind]
  cases hPrepare : request.prepare.perform outside session with
  | mk result prepared =>
      cases result with
      | error failure =>
          rcases exists_calls_of_prepare outside request
              session with
            ⟨asked, hAsked, hCalls⟩
          rw [hPrepare] at hCalls
          exact
            ⟨_, _, rfl, .refused (by decide) hAsked hCalls⟩
      | ok ready =>
          exact
            exists_ends_of_prepare hPrepare
              fun name hName =>
                hCan ready prepared name hPrepare hName

/- A script with a manifest. -/
def hello : Text :=
  ("//! ```cargo\n//! [package]\n" ++
      "//! name = \"hello\"\n//! ```\n" :
    String).toList

/- The manifest of that script. -/
def helloManifest : Text :=
  ("[package]\nname = \"hello\"\n" : String).toList

/- A request to run the script in the input. -/
def runningFrom
    (directory : Path)
    (binary : Option OsText) : RunRequest :=
  { file := none
    arguments := []
    options := { Cargo.RunOptions.usual with binary }
    manifest := some (Workspace.manifestIn directory)
    color := .auto
    config := some (Path.ofText "/settings.toml") }

/- The script is in the input, and settings are in a file. -/
def awaiting : Session Unit :=
  { start with
    tree :=
      (start.tree.set ["settings.toml"] (.file (.text []))).set
        ["work", "a"] .directory
    input := .ok hello }

/-
  A build tool that knows a member with an odd manifest, and
  that changes no file itself.
-/
def oddly : Outside Unit :=
  { surroundings with
    call := fun _ world tree =>
      (.finished 0
          (Template.lines
            ["\x7b\"packages\": [",
              "\x7b\"id\": \"hello 0.1.0\",",
              "\"name\": \"hello\",",
              "\"manifest_path\": \"/work/a/x.rs\",",
              "\"targets\": []\x7d],",
              "\"workspace_members\": [\"hello 0.1.0\"],",
              "\"workspace_root\": \"/work\",",
              "\"resolve\": null\x7d"])
          "",
        world, tree) }

/-
  A script is written over the manifest of its member, if the
  source that is asked for leads there, and is run then.
-/
theorem script_run_without_manifest :
    let request :=
      runningFrom (Path.ofText "/work") (some "../../x")
    let done :=
      (Request.perform (.runScript request)).perform oddly
        awaiting
    Script.extract hello = .ok helloManifest ∧
      (Manifest.packageName helloManifest).toOption =
          some ("hello" : Text) ∧
        done.1.toOption = some .success ∧
          done.2.calls.map (·.command.take 4) =
              ([["cargo", "metadata", "--no-deps",
                    "--format-version"],
                  ["cargo", "run", "-p", "hello"]] :
                List (List OsText)) ∧
            done.2.tree.find? ["work", "a", "x.rs"] =
                some (.file (.text hello)) ∧
              hello ≠ helloManifest := by
  decide +kernel

/- The script can be registered in the workspace. -/
theorem canRegister_hello
    {prepared : Session Unit}
    {found : Cargo.Metadata}
    (hRoot : found.root = Path.ofText "/work")
    (hNone : found.packages = [])
    (hText :
      Membership.manifestTextAt ["work"] prepared.tree
          (Path.ofText "/work") =
        some "[workspace]\nmembers = []\n") :
    Workspace.CanRegister ["work"] prepared.tree found
      "hello" none := by
  have hNew : found.findMember? "hello" = none := by
    rw [Cargo.Metadata.findMember?, hNone]
    rfl
  constructor
  case component =>
    exact ⟨"hello", by decide, by decide +kernel⟩
  case elsewhere =>
    intro member hMember
    cases hNew.symm.trans hMember
  case apart =>
    intro member hMember
    cases hNew.symm.trans hMember
  case faithful =>
    intro _ original document progress hOriginal hDocument
      hPlan
    rw [hRoot] at hOriginal hDocument hPlan
    cases hText.symm.trans hOriginal
    have hAll :
        ∀ document ∈
            (Membership.documentOf (Path.ofText "/work")
              "[workspace]\nmembers = []\n").toOption.toList,
          ∀ progress ∈
              (Membership.planned (Path.ofText "/work")
                (.include ((Path.ofText "/work").join "hello"))
                document).toOption.toList,
            Membership.TellsNames "[workspace]\nmembers = []\n"
                document ∧
              Membership.TellsNames progress.text
                progress.document := by
      decide +kernel
    refine hAll document ?_ progress ?_
    · rw [hDocument]
      exact List.mem_singleton_self _
    · rw [hPlan]
      exact List.mem_singleton_self _

/- A new member is made of a script, and is run. -/
theorem script_is_current_when_run_hello :
    let request := runningFrom (Path.ofText "/work") none
    (∀ ready prepared name,
        request.prepare.perform surroundings awaiting =
            (.ok ready, prepared) →
          Manifest.packageName ready.manifest = .ok name →
            Workspace.CanRegister ["work"] prepared.tree
              ready.found name none) ∧
      ∃ after,
        (Request.perform (.runScript request)).perform
              surroundings awaiting =
            (.ok .success, after) ∧
          request.Ends surroundings awaiting after .success := by
  intro request
  have hReady :
      (request.prepare.perform surroundings
            awaiting).1.toOption.map
          (fun ready => (ready.manifest, ready.found)) =
        some
          (helloManifest,
            { packages := []
              members := []
              root := Path.ofText "/work"
              resolve := none }) := by
    decide +kernel
  have hText :
      Membership.manifestTextAt ["work"]
          (request.prepare.perform surroundings
            awaiting).2.tree
          (Path.ofText "/work") =
        some "[workspace]\nmembers = []\n" := by
    decide +kernel
  have hPackage :
      (Manifest.packageName helloManifest).toOption =
        some "hello" := by
    decide +kernel
  have hCode :
      ((Request.perform (.runScript request)).perform
            surroundings awaiting).1.toOption =
        some .success := by
    decide +kernel
  have hCan :
      ∀ ready prepared name,
        request.prepare.perform surroundings awaiting =
            (.ok ready, prepared) →
          Manifest.packageName ready.manifest = .ok name →
            Workspace.CanRegister ["work"] prepared.tree
              ready.found name none := by
    intro ready prepared name hPrepare hName
    rw [hPrepare] at hReady hText
    rcases Prod.mk.inj (Option.some.inj hReady) with
      ⟨hManifest, hFound⟩
    rw [← hManifest, hName] at hPackage
    have hHello : name = "hello" := Option.some.inj hPackage
    rw [hHello, hFound]
    exact canRegister_hello rfl rfl hText
  refine ⟨hCan, ?_⟩
  rcases script_is_current_when_run surroundings awaiting
      request hCan with
    ⟨code, after, hRun, hEnds⟩
  rw [hRun] at hCode
  cases hCode
  exact ⟨after, hRun, hEnds⟩

end CommandLine

end ScriptWorkspace
