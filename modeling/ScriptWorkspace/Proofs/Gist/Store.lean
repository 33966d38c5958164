import ScriptWorkspace.Proofs.Gist.Address
import ScriptWorkspace.Proofs.Gist.Push
import ScriptWorkspace.Proofs.Gist.Registry
import ScriptWorkspace.Proofs.Gist.Stored

/-
  Pushing to a store that keeps what it is sent.

  A store of gists is a map from addresses to gists, of which
  nothing is known but how it answers: a gist that is fetched
  is shown as it is, a change of a file replaces its content
  and the description of the gist, and a new gist gets an
  address that had none. So what is pushed can be fetched.

  Main declarations:
    * `GistStore`
    * `GistStore.KeepsOthers`
    * `Outside.KeepsGists`
    * `Sync.IsPushed`
    * `Sync.PushRun.isPushed`
    * `Sync.push_again`
    * `Sync.push_settles`
-/

namespace ScriptWorkspace

open GistClient

variable {ω : Type}

------------------------------------------------------------
-- Stores
------------------------------------------------------------

/- The gists of a store, by their addresses. -/
abbrev GistStore := Text → Option StoredGist

namespace GistStore

variable {before after : GistStore}
variable {gistId address : Text}
variable {gist : StoredGist}

/- The gist of an id, if there is one at its address. -/
def gistOf
    (store : GistStore)
    (gistId : Text) : Option StoredGist :=
  (addressOf gistId).bind store

/- Only at one address there is another gist. -/
structure IsSet
    (before after : GistStore)
    (address : Text)
    (gist : StoredGist) : Prop where
  found : after address = some gist
  others :
    ∀ other, other ≠ address → after other = before other

/- The gists of all other plain ids are as they were. -/
def KeepsOthers
    (before after : GistStore)
    (gistId : Text) : Prop :=
  ∀ other,
    Address.IsPlain other →
      other ≠ gistId →
        after.gistOf other = before.gistOf other

theorem IsSet.gistOf_eq
    (hSet : IsSet before after address gist)
    (hAddress : addressOf gistId = some address) :
    after.gistOf gistId = some gist := by
  rw [gistOf, hAddress, Option.bind_some, hSet.found]

/- An address that is set is that of one plain id only. -/
theorem IsSet.keepsOthers
    (hSet : IsSet before after address gist)
    (hAddress : addressOf gistId = some address)
    (hPlain : Address.IsPlain gistId) :
    before.KeepsOthers after gistId := by
  intro other hOther hNe
  unfold gistOf
  rw [addressOf_of_isPlain hOther, Option.bind_some,
    Option.bind_some]
  apply hSet.others
  intro hSame
  apply hNe
  apply addressOf_injective hOther hPlain
  rw [addressOf_of_isPlain hOther, hSame, hAddress]

end GistStore

/- The address where gists are made. -/
def GistClient.newAddress : Text :=
  Address.base ++ ("/gists" : Text)

/-
  How a store of gists answers. What it shows of a gist is
  all of it; what it refuses is of no concern here.
-/
structure Outside.KeepsGists
    (outside : Outside ω)
    (store : ω → GistStore) : Prop where
  kept :
    ∀ (request : Request) (world : ω),
      request.method = "GET" →
        store (outside.send request world).2 = store world
  fetched :
    ∀ (request : Request) (world : ω) (gist : StoredGist),
      request.method = "GET" →
        store world request.url = some gist →
          ∃ body value,
            (outside.send request world).1 =
                .answer 200 body ∧
              readBody body = some value ∧
              gist.IsShownBy value
  missed :
    ∀ (request : Request) (world : ω) (body : Text),
      request.method = "GET" →
        store world request.url = none →
          (outside.send request world).1 ≠ .answer 200 body
  changed :
    ∀ (request : Request) (world : ω) (gist : StoredGist)
        (filename content description body : Text),
      request.method = "PATCH" →
        store world request.url = some gist →
        request.payload =
          some (changedGist filename content description) →
        (outside.send request world).1 = .answer 200 body →
          ∃ next : StoredGist,
            next.shownDescription = description ∧
              next.files = gist.filesWith filename content ∧
              GistStore.IsSet (store world)
                (store (outside.send request world).2)
                request.url next
  created :
    ∀ (request : Request) (world : ω)
        (filename content description gistId : Text)
        (isPublic : Bool),
      request.method = "POST" →
        request.url = newAddress →
        request.payload =
          some
            (newGist filename content description isPublic) →
        Sync.Creates gistId (outside.send request world).1 →
          ∃ (address : Text) (gist : StoredGist),
            addressOf gistId = some address ∧
              store world address = none ∧
              gist.shownDescription = description ∧
              gist.files = [(filename, content)] ∧
              GistStore.IsSet (store world)
                (store (outside.send request world).2)
                address gist

------------------------------------------------------------
-- Exchanges
------------------------------------------------------------

variable {outside : Outside ω}
variable {store : ω → GistStore}
variable {world after : ω}

/- Exchanges can be parted anywhere. -/
theorem Exchanges.of_append
    {front back : List Exchange}
    (hExchanges :
      Exchanges outside world (front ++ back) after) :
    ∃ between,
      Exchanges outside world front between ∧
        Exchanges outside between back after := by
  induction front generalizing world with
  | nil => exact ⟨world, .none world, hExchanges⟩
  | cons exchange front ih =>
      cases hExchanges with
      | next hSend hRest =>
          rcases ih hRest with ⟨between, hFront, hBack⟩
          exact ⟨between, .next hSend hFront, hBack⟩

namespace GistClient

variable {client : GistClient}

/- A request to a path goes to its address, and is answered. -/
theorem Requests.sent
    {method path : Text}
    {expected : Nat}
    {payload : Option Json}
    {exchanges : List Exchange}
    {found : Except Failure Json}
    (hRequests :
      client.Requests method path expected payload exchanges
        found)
    (hExchanges : Exchanges outside world exchanges after)
    {address : Text}
    (hAddress :
      (Address.read? path).map Address.requested =
        some address) :
    ∃ (request : Request) (shown : Text),
      request.method = method ∧
        request.url = address ∧
        request.payload = payload ∧
        exchanges.map Exchange.request = [request] ∧
        after = (outside.send request world).2 ∧
        found =
          (outside.send request world).1.value method shown
            expected := by
  cases hRequests with
  | noAddress hPath => simp [hPath] at hAddress
  | @answered reference hPath reply =>
      rw [hPath] at hAddress
      cases hAddress
      cases hExchanges with
      | next hSend hRest =>
          cases hRest
          exact
            ⟨_, Address.shown reference, rfl, rfl, rfl, rfl,
              by rw [hSend], by rw [hSend]⟩

/- What comes to a value has gone to an address. -/
theorem Requests.exists_address
    {method path : Text}
    {expected : Nat}
    {payload : Option Json}
    {exchanges : List Exchange}
    {value : Json}
    (hRequests :
      client.Requests method path expected payload exchanges
        (.ok value)) :
    ∃ address,
      (Address.read? path).map Address.requested =
        some address := by
  rcases hRequests.of_ok with ⟨exchange, _, rfl, _⟩
  rcases hRequests.of_mem List.mem_cons_self with
    ⟨_, reference, hPath, _⟩
  exact ⟨Address.requested reference, by rw [hPath]; rfl⟩

end GistClient

namespace Outside.KeepsGists

variable {client : GistClient}

/- Fetching a gist shows it, if there is one. -/
theorem fetch
    (hKeeps : outside.KeepsGists store)
    {gistId address : Text}
    {exchanges : List Exchange}
    {found : Except Failure Json}
    (hAddress : addressOf gistId = some address)
    (hGet :
      client.Requests "GET" (pathOf gistId) 200 none exchanges
        found)
    (hExchanges : Exchanges outside world exchanges after) :
    store after = store world ∧
      (store world address = none →
        ∀ value, found ≠ .ok value) ∧
      ∀ gist,
        store world address = some gist →
          ∃ value,
            found = .ok value ∧ gist.IsShownBy value := by
  rcases hGet.sent hExchanges hAddress with
    ⟨request, shown, hMethod, rfl, _, _, rfl, rfl⟩
  refine ⟨hKeeps.kept request world hMethod, ?_, ?_⟩
  · intro hMissing value hValue
    rcases Reply.of_value_eq_ok hValue with
      ⟨body, hReply, _⟩
    exact
      hKeeps.missed request world body hMethod hMissing hReply
  · intro gist hGist
    rcases hKeeps.fetched request world gist hMethod hGist with
      ⟨body, value, hReply, hBody, hShown⟩
    refine ⟨value, ?_, hShown⟩
    rw [hReply]
    exact Reply.value_answer _ _ _ hBody

/- A script that was fetched is the one of a stored gist. -/
theorem fetch_script
    (hKeeps : outside.KeepsGists store)
    {gistId : Text}
    {exchanges : List Exchange}
    {found : Except Failure Json}
    {remote : RemoteScript}
    (hGet :
      client.Requests "GET" (pathOf gistId) 200 none exchanges
        found)
    (hFetched : found.bind (scriptIn gistId) = .ok remote)
    (hExchanges : Exchanges outside world exchanges after) :
    ∃ (address : Text) (gist : StoredGist),
      addressOf gistId = some address ∧
        store world address = some gist ∧
        store after = store world ∧
        gist.scripts = [(remote.filename, remote.content)] ∧
        remote.description = gist.shownDescription := by
  cases found with
  | error failure => cases hFetched
  | ok value =>
      rcases hGet.exists_address with ⟨address, hAddress⟩
      rcases hKeeps.fetch hAddress hGet hExchanges with
        ⟨hKept, hMissing, hShows⟩
      cases hGist : store world address with
      | none => exact absurd rfl (hMissing hGist value)
      | some gist =>
          rcases hShows gist hGist with ⟨_, hValue, hShown⟩
          cases hValue
          rcases StoredGist.scripts_of_scriptIn hShown hFetched
            with ⟨hScripts, hDescription⟩
          exact
            ⟨address, gist, hAddress, hGist, hKept, hScripts,
              hDescription⟩

/- A gist with one script is fetched as that. -/
theorem fetched_script
    (hKeeps : outside.KeepsGists store)
    {gistId address filename content : Text}
    {gist : StoredGist}
    {exchanges : List Exchange}
    {found : Except Failure Json}
    (hAddress : addressOf gistId = some address)
    (hFound : store world address = some gist)
    (hScripts : gist.scripts = [(filename, content)])
    (hGet :
      client.Requests "GET" (pathOf gistId) 200 none exchanges
        found)
    (hExchanges : Exchanges outside world exchanges after) :
    found.bind (scriptIn gistId) =
      .ok
        { gistId, filename, content
          description := gist.shownDescription } := by
  rcases hKeeps.fetch hAddress hGet hExchanges with
    ⟨_, _, hShows⟩
  rcases hShows gist hFound with ⟨value, rfl, hShown⟩
  exact StoredGist.scriptIn_of_scripts hShown hScripts gistId

end Outside.KeepsGists

------------------------------------------------------------
-- Pushing
------------------------------------------------------------

namespace Sync

/-
  What a push leaves in the store: the gist at an address has
  the script as its only Rust file, and the description that
  was asked for, or else the one that it had. All else is as
  it was.
-/
structure IsPushed
    (before after : GistStore)
    (address script : Text)
    (asked : Option Text)
    (gist : StoredGist)
    (filename : Text) : Prop where
  scripts : gist.scripts = [(filename, script)]
  description :
    gist.shownDescription =
      asked.getD
        (((before address).map
          StoredGist.shownDescription).getD [])
  changed :
    ∀ previous,
      before address = some previous →
        gist.files = previous.filesWith filename script
  made :
    before address = none → gist.files = [(filename, script)]
  isSet : GistStore.IsSet before after address gist

variable {client : GistClient}
variable {gistIds : GistIds}
variable {package script : Text}
variable {options : PushOptions}

/- A gist that already is what is pushed. -/
theorem isPushed_of_not_differs
    {remote : RemoteScript}
    {gist : StoredGist}
    {before after : GistStore}
    {address : Text}
    (hFound : before address = some gist)
    (hKept : after = before)
    (hScripts :
      gist.scripts = [(remote.filename, remote.content)])
    (hDescription :
      remote.description = gist.shownDescription)
    (hSame : ¬ Differs remote script options.description) :
    IsPushed before after address script options.description
      gist remote.filename := by
  simp only [Differs, not_or, not_exists, not_and, ne_eq,
    not_not] at hSame
  rcases hSame with ⟨rfl, hAsked⟩
  constructor
  case scripts => exact hScripts
  case description =>
    cases hOption : options.description with
    | none => simp [hFound]
    | some asked =>
        rw [← hDescription, ← hAsked asked hOption]
        rfl
  case changed =>
    intro previous hPrevious
    rw [hFound] at hPrevious
    cases hPrevious
    exact (StoredGist.filesWith_self hScripts).symm
  case made =>
    intro hNone
    rw [hFound] at hNone
    cases hNone
  case isSet =>
    subst hKept
    exact ⟨hFound, fun _ _ => rfl⟩

/- A gist that is changed to what is pushed. -/
theorem isPushed_of_changed
    {remote : RemoteScript}
    {gist next : StoredGist}
    {before after : GistStore}
    {address : Text}
    (hFound : before address = some gist)
    (hScripts :
      gist.scripts = [(remote.filename, remote.content)])
    (hDescription :
      remote.description = gist.shownDescription)
    (hNext :
      next.shownDescription =
        options.description.getD remote.description)
    (hFiles :
      next.files = gist.filesWith remote.filename script)
    (hSet : GistStore.IsSet before after address next) :
    IsPushed before after address script options.description
      next remote.filename := by
  constructor
  case scripts =>
    rw [StoredGist.scripts, hFiles]
    exact StoredGist.filter_filesWith hScripts script
  case description =>
    rw [hNext, hDescription, hFound]
    rfl
  case changed =>
    intro previous hPrevious
    rw [hFound] at hPrevious
    cases hPrevious
    exact hFiles
  case made =>
    intro hNone
    rw [hFound] at hNone
    cases hNone
  case isSet => exact hSet

/- A gist that is made for what is pushed. -/
theorem isPushed_of_made
    {gist : StoredGist}
    {before after : GistStore}
    {address filename : Text}
    (hRust : isRustName filename = true)
    (hMissing : before address = none)
    (hDescription :
      gist.shownDescription = options.description.getD [])
    (hFiles : gist.files = [(filename, script)])
    (hSet : GistStore.IsSet before after address gist) :
    IsPushed before after address script options.description
      gist filename := by
  constructor
  case scripts =>
    rw [StoredGist.scripts, hFiles]
    simp [hRust]
  case description =>
    rw [hDescription, hMissing]
    rfl
  case changed =>
    intro previous hPrevious
    rw [hMissing] at hPrevious
    cases hPrevious
  case made => exact fun _ => hFiles
  case isSet => exact hSet

/- What a run that succeeds leaves in the store. -/
theorem PushRun.isPushed
    (hKeeps : outside.KeepsGists store)
    (hNonempty : package ≠ [])
    (hSlash : '/' ∉ package)
    {exchanges : List Exchange}
    {state : RemoteState}
    {registry : GistIds}
    (hRun :
      PushRun client gistIds package script options exchanges
        (.ok (state, registry)))
    (hExchanges : Exchanges outside world exchanges after) :
    ∃ (gistId address : Text) (gist : StoredGist)
        (filename : Text),
      GistIds.find? package registry = some gistId ∧
        addressOf gistId = some address ∧
        IsPushed (store world) (store after) address script
          options.description gist filename := by
  generalize hResult : Except.ok (state, registry) = result
    at hRun
  cases hRun with
  | noUpstream hUnknown hOff => cases hResult
  | notFetched hKnown hGet hFailed => cases hResult
  | upToDate hKnown hGet hFetched hSame =>
      cases hResult
      rcases hKeeps.fetch_script hGet hFetched hExchanges with
        ⟨address, gist, hAddress, hFound, hKept, hScripts,
          hDescription⟩
      exact
        ⟨_, address, gist, _, hKnown, hAddress,
          isPushed_of_not_differs hFound hKept hScripts
            hDescription hSame⟩
  | @update gistId fetched written found answered remote
      hKnown hGet hFetched hDiffers hPatch =>
      cases answered with
      | error failure => cases hResult
      | ok value =>
      cases hResult
      rcases hExchanges.of_append with
        ⟨between, hFront, hBack⟩
      rcases hKeeps.fetch_script hGet hFetched hFront with
        ⟨address, gist, hAddress, hFound, hKept, hScripts,
          hDescription⟩
      rcases hPatch.sent hBack hAddress with
        ⟨request, shown, hMethod, rfl, hPayload, _, rfl,
          hValue⟩
      rcases Reply.of_value_eq_ok hValue.symm with
        ⟨body, hReply, _⟩
      rcases hKeeps.changed request between gist _ _ _ body
          hMethod (by rw [hKept, hFound]) hPayload hReply with
        ⟨next, hNext, hFiles, hSet⟩
      rw [hKept] at hSet
      exact
        ⟨gistId, request.url, next, _, hKnown, hAddress,
          isPushed_of_changed hFound hScripts hDescription
            hNext hFiles hSet⟩
  | @create exchanges found hUnknown hOn hPost =>
      cases hId : found.bind createdIn with
      | error failure =>
          rw [hId] at hResult
          cases hResult
      | ok gistId =>
      rw [hId] at hResult
      cases hResult
      have hNew :
          (Address.read? "gists").map Address.requested =
            some newAddress := by
        decide
      rcases hPost.sent hExchanges hNew with
        ⟨request, shown, hMethod, hUrl, hPayload, hSent, rfl,
          hValue⟩
      rcases creates_of_createdIn hPost hId with
        ⟨exchange, rfl, hCreates⟩
      have hReply :
          exchange.reply =
            (outside.send request world).1 := by
        cases hExchanges with
        | next hSend hRest =>
            cases hSent
            rw [hSend]
      rw [hReply] at hCreates
      rcases hKeeps.created request world _ _ _ gistId _
          hMethod hUrl hPayload hCreates with
        ⟨address, gist, hAddress, hMissing, hDescription,
          hFiles, hSet⟩
      exact
        ⟨gistId, address, gist, _,
          GistIds.find?_put_self package gistId gistIds,
          hAddress,
          isPushed_of_made
            (isRustName_append hNonempty hSlash) hMissing
            hDescription hFiles hSet⟩

/- A gist that is what is pushed is only fetched. -/
theorem push_again
    (hKeeps : outside.KeepsGists store)
    {session : Session ω}
    {gistId address : Text}
    {gist : StoredGist}
    {filename : Text}
    (hKnown : GistIds.find? package gistIds = some gistId)
    (hAddress : addressOf gistId = some address)
    (hFound : store session.world address = some gist)
    (hScripts : gist.scripts = [(filename, script)])
    (hAsked :
      ∀ asked,
        options.description = some asked →
          asked = gist.shownDescription) :
    ∃ (request : Request) (again : Session ω),
      (push client gistIds package script options
            false).perform outside session =
          (.ok (.upToDate, gistIds), again) ∧
        again.requests = session.requests ++ [request] ∧
        request.method = "GET" ∧
        store again.world = store session.world := by
  rcases performs_push_of_known outside session client script
      options hKnown with
    ⟨exchanges, result, again, hRun, hPerforms⟩
  have hExchanges := hPerforms.isAfter.worlds
  cases hRun with
  | noUpstream hUnknown hOff =>
      rw [hKnown] at hUnknown
      cases hUnknown
  | create hUnknown hOn hPost =>
      rw [hKnown] at hUnknown
      cases hUnknown
  | notFetched hOther hGet hFailed =>
      rw [hKnown] at hOther
      cases hOther
      rw [hKeeps.fetched_script hAddress hFound hScripts hGet
        hExchanges] at hFailed
      cases hFailed
  | upToDate hOther hGet hFetched hSame =>
      rw [hKnown] at hOther
      cases hOther
      rcases hGet.sent hExchanges hAddress with
        ⟨request, shown, hMethod, _, _, hSent, _, _⟩
      refine
        ⟨request, again, hPerforms.run, ?_, hMethod, ?_⟩
      · rw [hPerforms.isAfter.requests, hSent]
      · exact (hKeeps.fetch hAddress hGet hExchanges).1
  | update hOther hGet hFetched hDiffers hPatch =>
      rw [hKnown] at hOther
      cases hOther
      rcases hExchanges.of_append with ⟨between, hFront, _⟩
      rw [hKeeps.fetched_script hAddress hFound hScripts hGet
        hFront] at hFetched
      cases hFetched
      -- What was fetched is what was pushed: nothing differs.
      rcases hDiffers with hContent | ⟨asked, hOption, hNe⟩
      · exact absurd rfl hContent
      · exact absurd (hAsked asked hOption) hNe

/-
  A push that succeeds leaves the script and the description
  in the registered gist and nothing else anywhere, so that
  the same push again only fetches, and finds nothing to do.
  If the id of the gist is plain, then every other plain id
  has the gist that it had.
-/
theorem push_settles
    {outside : Outside ω}
    {store : ω → GistStore}
    (hKeeps : outside.KeepsGists store)
    (session : Session ω)
    (client : GistClient)
    (gistIds : GistIds)
    (package script : Text)
    (options : PushOptions)
    (hNonempty : package ≠ [])
    (hSlash : '/' ∉ package)
    {state : RemoteState}
    {registry : GistIds}
    {after : Session ω}
    (hPush :
      (push client gistIds package script options
            false).perform outside session =
        (.ok (state, registry), after)) :
    (∃ (gistId address : Text) (gist : StoredGist)
        (filename : Text),
      GistIds.find? package registry = some gistId ∧
        addressOf gistId = some address ∧
        IsPushed (store session.world) (store after.world)
            address script options.description gist
            filename ∧
          (store after.world).gistOf gistId = some gist ∧
            (Address.IsPlain gistId →
              (store session.world).KeepsOthers
                (store after.world) gistId)) ∧
      ∃ (request : Request) (again : Session ω),
        (push client registry package script options
              false).perform outside after =
            (.ok (.upToDate, registry), again) ∧
          again.requests = after.requests ++ [request] ∧
          request.method = "GET" ∧
          store again.world = store after.world := by
  rcases performs_push outside session client gistIds package
      script options with
    ⟨exchanges, result, last, hRun, hPerforms⟩
  rw [hPerforms.run] at hPush
  cases hPush
  rcases hRun.isPushed hKeeps hNonempty hSlash
      hPerforms.isAfter.worlds with
    ⟨gistId, address, gist, filename, hKnown, hAddress,
      hIs⟩
  refine
    ⟨⟨gistId, address, gist, filename, hKnown, hAddress, hIs,
        hIs.isSet.gistOf_eq hAddress,
        hIs.isSet.keepsOthers hAddress⟩,
      push_again hKeeps hKnown hAddress hIs.isSet.found
        hIs.scripts ?_⟩
  intro asked hAsked
  rw [hIs.description, hAsked]
  rfl

/-
  A store in which one gist can be made, and no other one:
  the only address of a gist is that of the first id.
-/
namespace FirstGist

def address : Text := Address.base ++ ("/gists/1" : Text)

def source : Text := "fn main() \x7b\x7d"

def gist : StoredGist :=
  { description := some []
    files := [("a.rs".toList, source)] }

/- How the gist is shown. -/
def body : Text :=
  "\x7b\"id\": \"1\", \"description\": \"\",".toList ++
    "\"files\": \x7b\"a.rs\": \x7b".toList ++
    "\"filename\": \"a.rs\",".toList ++
    "\"content\": \"fn main() \x7b\x7d\"".toList ++
    "\x7d\x7d\x7d".toList

def value : Json :=
  .object
    [sent "id" (sentText "1"),
      sent "description" (sentText ""),
      sent "files"
        (.object
          [sent "a.rs"
            (.object
              [sent "filename" (sentText "a.rs"),
                sent "content" (sentText source)])])]

theorem readBody_body : readBody body = some value := by
  cbv

theorem isShownBy_value : gist.IsShownBy value := by
  constructor
  case id => exact ⟨"1", rfl⟩
  case description => exact .inl rfl
  case files =>
    exact ⟨_, rfl, .cons ⟨rfl, rfl, rfl, .inl rfl⟩ .nil⟩

/- The gist is asked for, and nothing else. -/
def isAskedFor : Option Json → Bool
  | some
      (.object
        [(_, .object
            [(some filename,
              .object [(_, .string (some content))])]),
          (_, .string (some description)), _]) =>
    decide
      (description = [] ∧ [(filename, content)] = gist.files)
  | _ => false

/- What is answered, and if the gist is made by then. -/
def send (request : Request) (isMade : Bool) : Reply × Bool :=
  if request.method = "GET" then
    if isMade ∧ request.url = address then
      (.answer 200 body, isMade)
    else
      (.answer 404 [], isMade)
  else if request.method = "POST" then
    if isMade = false ∧ isAskedFor request.payload then
      (.answer 201 body, true)
    else
      (.answer 422 [], isMade)
  else
    (.answer 422 [], isMade)

def surroundings : Outside Bool :=
  { home := Path.ofText "/home"
    directory := Path.ofText "/work"
    «variables» := []
    call := fun _ world tree => (.notFound, world, tree)
    send }

def gists (isMade : Bool) : GistStore := fun other =>
  if isMade ∧ other = address then some gist else none

theorem gists_eq_some
    {isMade : Bool}
    {other : Text}
    {found : StoredGist}
    (hFound : gists isMade other = some found) :
    (isMade = true ∧ other = address) ∧ found = gist := by
  simpa [gists, eq_comm] using hFound

theorem isSet_gists :
    GistStore.IsSet (gists false) (gists true) address
      gist where
  found := by simp [gists]
  others := by
    intro other hOther
    simp [gists, hOther]

theorem keepsGists : surroundings.KeepsGists gists := by
  constructor
  case kept =>
    intro request isMade hGet
    simp only [surroundings, send, hGet, if_true]
    split
    · rfl
    · rfl
  case fetched =>
    intro request isMade found hGet hFound
    rcases gists_eq_some hFound with ⟨hMade, rfl⟩
    refine ⟨body, value, ?_, readBody_body, isShownBy_value⟩
    simp [surroundings, send, hGet, hMade]
  case missed =>
    intro request isMade body hGet hMissing hReply
    have hNot :
        ¬ (isMade = true ∧ request.url = address) := by
      simpa [gists] using hMissing
    simp [surroundings, send, hGet, hNot] at hReply
  case changed =>
    intro request isMade found filename content description
      body hPatch _ _ hReply
    simp [surroundings, send, hPatch] at hReply
  case created =>
    intro request isMade filename content description gistId
      isPublic hPost _ hPayload hCreates
    rcases hCreates with ⟨shown, made, hReply, hBody, hId⟩
    by_cases hAsked :
        isMade = false ∧ isAskedFor request.payload = true
    · have hSend :
          surroundings.send request isMade =
            (.answer 201 body, true) := by
        simp [surroundings, send, hPost, hAsked]
      rw [hSend] at hReply
      cases hReply
      rw [readBody_body] at hBody
      cases hBody
      cases hId
      rcases hAsked with ⟨rfl, hFirst⟩
      rw [hPayload] at hFirst
      have hGist :
          description = [] ∧
            [(filename, content)] = gist.files :=
        of_decide_eq_true hFirst
      refine
        ⟨address, gist, by decide, by simp [gists],
          hGist.1.symm, hGist.2.symm, ?_⟩
      rw [hSend]
      exact isSet_gists
    · simp [surroundings, send, hPost, hAsked] at hReply

/- A package is pushed to a gist of its own. -/
def wanted : PushOptions :=
  { setUpstream := true, isPrivate := true
    description := none }

end FirstGist

open FirstGist in
/- The second push of a package finds its gist up to date. -/
theorem first_gist_settles :
    surroundings.KeepsGists gists ∧
      ("a" : Text) ≠ [] ∧ '/' ∉ ("a" : Text) ∧
      ∃ (after : Session Bool) (request : Request)
          (again : Session Bool),
        (push .anonymous [] "a" source wanted false).perform
              surroundings (.start ⟨[]⟩ false) =
            (.ok (.absent, [("a".toList, "1".toList)]),
              after) ∧
          (gists after.world).gistOf "1" = some gist ∧
          (gists false).KeepsOthers (gists after.world) "1" ∧
          (push .anonymous [("a".toList, "1".toList)] "a"
                source wanted false).perform surroundings
              after =
            (.ok (.upToDate, [("a".toList, "1".toList)]),
              again) ∧
          again.requests = after.requests ++ [request] ∧
          request.method = "GET" := by
  have hResult :
      ((push .anonymous [] "a" source wanted false).perform
            surroundings (.start ⟨[]⟩ false)).1.toOption =
        some (.absent, [("a".toList, "1".toList)]) := by
    decide +kernel
  have hName :
      ("a" : Text) ≠ [] ∧ '/' ∉ ("a" : Text) := by
    decide
  refine ⟨keepsGists, hName.1, hName.2, ?_⟩
  cases hRun :
      (push .anonymous [] "a" source wanted false).perform
        surroundings (.start ⟨[]⟩ false) with
  | mk result after =>
      rw [hRun] at hResult
      cases result with
      | error failure => cases hResult
      | ok pushed =>
          cases hResult
          rcases push_settles keepsGists _ _ _ _ _ _ hName.1
              hName.2 hRun with
            ⟨⟨gistId, _, found, _, hKnown, _, hPushed, hFound,
                hOthers⟩,
              request, again, hAgain, hRequests, hMethod, _⟩
          obtain rfl : ("1" : Text) = gistId :=
            Option.some.inj hKnown
          obtain rfl : found = gist :=
            (gists_eq_some hPushed.isSet.found).2
          exact
            ⟨after, request, again, rfl, hFound,
              hOthers (by decide), hAgain, hRequests,
              hMethod⟩

end Sync

end ScriptWorkspace
