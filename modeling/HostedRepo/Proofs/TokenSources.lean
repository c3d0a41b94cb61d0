import HostedRepo.CommandLine.Run
import HostedRepo.Proofs.AuthorizedRequests
import HostedRepo.Proofs.Utf8Reading

/-!
# Where the token of a run comes from

A token is looked for on the command line, in the configuration file and in the environment, in this
order. The one that is found is the token of the client, and nothing else that the configuration
says hangs on where it was found.
-/

namespace HostedRepo

open Http

namespace Config

/-! ### Sources -/

/-- The token that a given one, that of a file and a variable of the environment stand for. The
variable counts if it is a text that is not blank. -/
inductive TokenFrom (given file : Option String) (found : Option Bytes) : Option String → Prop
  | given {s : String} : given = some s → TokenFrom given file found (some s)
  | file {s : String} : given = none → file = some s → TokenFrom given file found (some s)
  | environment {s : String} : given = none → file = none →
    found = some (Text.Utf8.encode s) → Text.allBlank s = false →
      TokenFrom given file found (some s)
  | nowhere : given = none → file = none →
    (∀ s, found = some (Text.Utf8.encode s) → Text.allBlank s = true) →
      TokenFrom given file found none

variable {given file : Option String} {found : Option Bytes}

lemma environmentToken_eq_some_iff {s : String} :
    environmentToken found = some s ↔
      found = some (Text.Utf8.encode s) ∧ Text.allBlank s = false := by
  unfold environmentToken
  rw [Option.filter_eq_some_iff, Option.bind_eq_some_iff]
  simp only [Text.Utf8.decode?_eq_some_iff, Bool.not_eq_true']
  constructor
  · rintro ⟨⟨bs, rfl, rfl⟩, hblank⟩
    exact ⟨rfl, hblank⟩
  · rintro ⟨rfl, hblank⟩
    exact ⟨⟨_, rfl, rfl⟩, hblank⟩

/-- There is always one such token, and it is the one that the configuration is given. -/
theorem tokenFrom_iff {t : Option String} :
    TokenFrom given file found t ↔ t = (given.or file).or (environmentToken found) := by
  constructor
  · rintro (rfl | ⟨rfl, rfl⟩ | ⟨rfl, rfl, hfound, hblank⟩ | ⟨rfl, rfl, hblank⟩)
    · rfl
    · rfl
    · exact (environmentToken_eq_some_iff.mpr ⟨hfound, hblank⟩).symm
    · symm
      rw [Option.or_self, Option.none_or, Option.eq_none_iff_forall_ne_some]
      intro s hs
      obtain ⟨hfound, hne⟩ := environmentToken_eq_some_iff.mp hs
      cases hne.symm.trans (hblank s hfound)
  · rintro rfl
    cases given with
    | some s => exact .given rfl
    | none =>
      cases file with
      | some s => exact .file rfl rfl
      | none =>
        cases henv : environmentToken found with
        | some s =>
          obtain ⟨hfound, hblank⟩ := environmentToken_eq_some_iff.mp henv
          exact .environment rfl rfl hfound hblank
        | none =>
          refine .nowhere rfl rfl fun s hs => ?_
          by_contra hblank
          have hsome := environmentToken_eq_some_iff.mpr ⟨hs, Bool.not_eq_true _ ▸ hblank⟩
          cases henv.symm.trans hsome

/-! ### The configuration besides the token -/

/-- The configuration that a file holds; without the file there are the defaults. -/
def ofFile (d : Files.Disk) (path : String) : Except Failure Config :=
  if d.isThere path then load d path else .ok {}

def withoutToken (c : Config) : Config := { c with token := none }

lemma resolve_snd (d : Files.Disk) (path : String) (given : Option String) (found : Option Bytes) :
    (resolve d path given found).2 = (ofFile d path).map (resolveToken given found) := by
  unfold resolve ofFile
  split <;> rfl

/-- What a configuration says besides the token, and whether there is one, is up to the file. -/
theorem resolve_withoutToken (d : Files.Disk) (path : String) (given : Option String)
    (found : Option Bytes) :
    (resolve d path given found).2.map withoutToken = (ofFile d path).map withoutToken := by
  rw [resolve_snd]
  cases ofFile d path <;> rfl

lemma client_of_parsed {c : Config} {base : Url} (hbase : Url.parse c.apiBase = .ok base)
    (hweb : Agent.isWeb base = true) :
    c.client = if isHeaderValue c.userAgent then .ok ⟨base, c.token.map Token.mk, c.userAgent⟩
      else .error (.during .makeClient (.remote (.transport .headerValue))) := by
  obtain ⟨parts, hpath, -⟩ := (Url.parse_webForm hbase hweb).path
  have hopen : base.isOpaque = false := by rw [Url.isOpaque, hpath]
  have hbuild : Client.build c.settings = if isHeaderValue c.userAgent then
      .ok ⟨base, c.token.map Token.mk, c.userAgent⟩ else .error (.transport .headerValue) := by
    unfold Client.build settings
    rw [Option.getD_some, hbase]
    change (do
      if base.isOpaque then throw (.url .opaqueBase)
      if !isHeaderValue c.userAgent then throw (.transport .headerValue)
      return ⟨base, c.token.map Token.mk, c.userAgent⟩ : Except RemoteError Client) = _
    rw [hopen]
    cases isHeaderValue c.userAgent <;> rfl
  rw [client, hbuild]
  split <;> rfl

end Config

/-! ### Runs -/

namespace CommandLine

variable {env : Environment} {i : Invocation} {w : World}

lemma report_foldl (events : List Log.Event) (wire : Wire) :
    events.foldl (fun wire e => wire.report e) wire =
      { wire with log := wire.log ++ events } := by
  induction events generalizing wire with
  | nil => simp
  | cons e events ih =>
    rw [List.foldl_cons, ih]
    simp [Wire.report]

lemma exit_wire (env : Environment) (i : Invocation) (w : World) :
    (exit env i w).world.wire = ((perform env i).run w).2.wire := by
  unfold exit
  rcases (perform env i).run w with ⟨_ | _, w'⟩ <;> rfl

lemma exit_code_of_error {f : Failure} (h : ((perform env i).run w).1 = .error f) :
    (exit env i w).code = 1 := by
  unfold exit
  rcases hrun : (perform env i).run w with ⟨_ | _, w'⟩
  · rfl
  · rw [hrun] at h
    cases h

lemma configuration_snd (env : Environment) (i : Invocation) (w : World) :
    (configuration env i w).2 =
      (Config.ofFile w.disk i.configFile).map
        (Config.resolveToken i.token (env Config.tokenVariable)) := by
  rw [← Config.resolve_snd]
  unfold configuration
  rcases Config.resolve w.disk i.configFile i.token (env Config.tokenVariable) with
    ⟨events, _ | c⟩ <;> rfl

lemma perform_eq (env : Environment) (i : Invocation) (w : World) :
    (perform env i).run w = (do
      let c ← Action.of (configuration env i w).2
      let client ← Action.of c.client
      i.command.execute client : Action Unit).run
        { w with wire := { w.wire with log := w.wire.log ++ (configuration env i w).1 } } := by
  rw [← report_foldl]
  rfl

section

variable {file : Config} {base : Url} {t : Option String}

lemma perform_run (hfile : Config.ofFile w.disk i.configFile = .ok file)
    (hbase : Url.parse file.apiBase = .ok base) (hweb : Agent.isWeb base = true)
    (ht : Config.TokenFrom i.token file.token (env Config.tokenVariable) t) :
    ∃ w' : World, w'.disk = w.disk ∧ (∃ log, w'.wire = { w.wire with log := log }) ∧
      (perform env i).run w =
        if isHeaderValue file.userAgent then
          (i.command.execute ⟨base, t.map Token.mk, file.userAgent⟩).run w'
        else (.error (.during .makeClient (.remote (.transport .headerValue))), w') := by
  let c := Config.resolveToken i.token (env Config.tokenVariable) file
  have htoken : c.token = t := (Config.tokenFrom_iff.mp ht).symm
  have hconfig : (configuration env i w).2 = .ok c := by
    rw [configuration_snd, hfile]
    rfl
  have hclient : c.client = if isHeaderValue file.userAgent then
      .ok ⟨base, t.map Token.mk, file.userAgent⟩
      else .error (.during .makeClient (.remote (.transport .headerValue))) := by
    rw [Config.client_of_parsed (c := c) hbase hweb, htoken]
    rfl
  let log := w.wire.log ++ (configuration env i w).1
  refine ⟨{ w with wire := { w.wire with log := log } }, rfl, ⟨log, rfl⟩, ?_⟩
  rw [perform_eq, hconfig]
  change (Action.of c.client >>= fun client => i.command.execute client).run _ = _
  rw [hclient, run_bind]
  cases isHeaderValue file.userAgent <;> rfl

variable {arguments : List String} {disk : Files.Disk}

/-- A run stops with nothing sent because of its user agent, or ends as its command does. -/
lemma run_cases (onTerminal : Bool) (wire : Wire)
    (harguments : Invocation.ofArguments arguments = .ok i)
    (hfile : Config.ofFile disk i.configFile = .ok file)
    (hbase : Url.parse file.apiBase = .ok base) (hweb : Agent.isWeb base = true)
    (ht : Config.TokenFrom i.token file.token (env Config.tokenVariable) t) :
    let exit := run env arguments onTerminal disk wire
    let c : Client := ⟨base, t.map Token.mk, file.userAgent⟩
    ∃ w : World, w.disk = disk ∧ (∃ log, w.wire = { wire with log := log }) ∧
      ((isHeaderValue file.userAgent = false ∧ exit.code = 1 ∧ exit.world.wire = w.wire) ∨
        (exit.world.wire = ((i.command.execute c).run w).2.wire ∧
          ∀ f, ((i.command.execute c).run w).1 = .error f → exit.code = 1)) := by
  intro exit c
  let start : World :=
    { disk := disk, wire := wire, console := { color := env.usesColor onTerminal } }
  have hexit : exit = CommandLine.exit env i start := by
    change run env arguments onTerminal disk wire = _
    rw [run, harguments]
  obtain ⟨w, hdisk, hlog, hperform⟩ := perform_run (w := start) hfile hbase hweb ht
  refine ⟨w, hdisk, hlog, ?_⟩
  rw [hexit, exit_wire, hperform]
  by_cases hagent : isHeaderValue file.userAgent = true
  · rw [if_pos hagent] at hperform ⊢
    refine .inr ⟨rfl, fun f hf => exit_code_of_error (f := f) ?_⟩
    rw [hperform]
    exact hf
  · rw [if_neg hagent] at hperform ⊢
    have hcode := exit_code_of_error (congrArg Prod.fst hperform)
    exact .inl ⟨Bool.not_eq_true _ ▸ hagent, hcode, rfl⟩

/-- Of the sources of a token the first that has one decides, for every run of a command that needs
the repository: a token that cannot be the value of a header ends the run before anything is sent,
all trails of the calls of a run start with the token as their only authorization, and without a
token none is sent at all. What else a configuration says is up to its file. -/
theorem run_authorized (onTerminal : Bool) (wire : Wire)
    (harguments : Invocation.ofArguments arguments = .ok i)
    (hnetwork : ∀ url, i.command ≠ .parseUrl url)
    (hfile : Config.ofFile disk i.configFile = .ok file)
    (hbase : Url.parse file.apiBase = .ok base) (hweb : Agent.isWeb base = true)
    (hplain : base.withoutUserinfo = base)
    (ht : Config.TokenFrom i.token file.token (env Config.tokenVariable) t) :
    let exit := run env arguments onTerminal disk wire
    let c : Client := ⟨base, t.map Token.mk, file.userAgent⟩
    (∀ s, t = some s → isHeaderValue s = false →
      exit.code = 1 ∧ exit.world.wire.sent = wire.sent) ∧
    (∃ log h, Through c.TakesAuthorized { wire with log := log } h exit.world.wire ∧
      (isHeaderValue file.userAgent = true → i.command.firstFailure? disk = none →
        ∃ task result, i.command.task? disk = some task ∧
          task.operation.run.Yields h result)) ∧
    (t = none → ∃ reqs, exit.world.wire.sent = wire.sent ++ reqs ∧
      ∀ q ∈ reqs, ∀ s, ¬q.Bears ⟨s⟩) ∧
    ∀ d path given given' found found',
      (Config.resolve d path given found).2.map Config.withoutToken =
        (Config.resolve d path given' found').2.map Config.withoutToken := by
  intro exit c
  obtain ⟨w, rfl, ⟨log, hlog⟩, hcases⟩ := run_cases onTerminal wire harguments hfile hbase hweb ht
  have hsent : w.wire.sent = wire.sent := by rw [hlog]
  refine ⟨?_, ⟨log, ?_⟩, ?_, ?_⟩
  · rintro s rfl hinvalid
    obtain ⟨-, hcode, hwire⟩ | ⟨hwire, hcode⟩ := hcases
    · exact ⟨hcode, hwire ▸ hsent⟩
    · have hbearer := (isHeaderValue_bearer s).trans hinvalid
      obtain ⟨⟨f, hf⟩, hkept⟩ := Command.execute_refused (c := c) rfl hbearer hnetwork w
      exact ⟨hcode f hf, hwire ▸ hkept.trans hsent⟩
  · rw [← hlog]
    obtain ⟨hagent, -, hwire⟩ | ⟨hwire, -⟩ := hcases
    · refine ⟨[], hwire ▸ .nil _, fun hvalid => ?_⟩
      cases hvalid.symm.trans hagent
    · cases hmet : i.command.firstFailure? w.disk with
      | some f =>
        rw [Command.execute_run_of_failure hmet] at hwire
        exact ⟨[], hwire ▸ .nil _, fun _ h => by cases h⟩
      | none =>
        obtain ⟨task, htask⟩ := Command.exists_task hnetwork hmet
        obtain ⟨h, result, hyields, ht⟩ := Command.execute_authorized (c := c) hplain hmet htask
        exact ⟨h, hwire ▸ ht, fun _ _ => ⟨task, result, htask, hyields⟩⟩
  · rintro rfl
    obtain ⟨-, -, hwire⟩ | ⟨hwire, -⟩ := hcases
    · exact ⟨[], by rw [hwire, hsent, List.append_nil], by simp⟩
    · have hpasses := Command.execute_bears_nothing (c := c) rfl hnetwork w
      rw [← hsent, hwire]
      exact hpasses.sent fun q hq s => hq ⟨s⟩
  · intro d path given given' found found'
    rw [Config.resolve_withoutToken, Config.resolve_withoutToken]

end

section

/-- A disk with a configuration file that names a root and leaves the token out. -/
def rooted : Files.Disk where
  entries := [(["ghrepo.yaml"],
    .file (Text.Utf8.encode "api_base: http://api.test\ntoken:\n"))]

def rootedConfig : Config := { apiBase := "http://api.test" }

/-- An environment that holds a token. -/
def holding : Environment := fun name =>
  if name = Config.tokenVariable then some (Text.Utf8.encode "secret") else none

def removal : List String := ["rm-dirs", "o", "r", "docs"]

def removing : Invocation := { command := .removeDirs ⟨"o", "r"⟩ ["docs"] }

/-- The token of the environment is sent, unless one with a line break is given. -/
theorem run_authorized_environment :
    let wire := Wire.scripted "http" []
    let broken := removal ++ ["--token", "a\nb"]
    Invocation.ofArguments removal = .ok removing ∧
      Invocation.ofArguments broken = .ok { removing with token := some "a\nb" } ∧
      (run holding removal false rooted wire).world.wire.sent.map Request.authorizations =
        [["Bearer secret"]] ∧
      (∃ log h, Through (Client.TakesAuthorized ⟨keyed.apiBase, some ⟨"secret"⟩,
          Client.defaultUserAgent⟩) { wire with log := log } h
        (run holding removal false rooted wire).world.wire) ∧
      (run holding broken false rooted wire).code = 1 ∧
      (run holding broken false rooted wire).world.wire.sent = [] := by
  intro wire broken
  have hremoval : Invocation.ofArguments removal = .ok removing := by decide +kernel
  have hbroken : Invocation.ofArguments broken = .ok { removing with token := some "a\nb" } := by
    decide +kernel
  have hfile : Config.ofFile rooted removing.configFile = .ok rootedConfig := by decide +kernel
  have hbase : Url.parse rootedConfig.apiBase = .ok keyed.apiBase := by decide +kernel
  have hnetwork : ∀ url, removing.command ≠ .parseUrl url := fun _ h => by cases h
  have hheld : Config.TokenFrom removing.token rootedConfig.token
      (holding Config.tokenVariable) (some "secret") :=
    .environment rfl rfl (by decide) (by decide)
  obtain ⟨-, ⟨log, h, hthrough, -⟩, -⟩ := run_authorized false wire hremoval hnetwork hfile hbase
    (by decide) (by decide) hheld
  have hgiven : Config.TokenFrom (some "a\nb") rootedConfig.token
      (holding Config.tokenVariable) (some "a\nb") := .given rfl
  obtain ⟨hrefused, -⟩ := run_authorized false wire hbroken hnetwork hfile hbase (by decide)
    (by decide) hgiven
  obtain ⟨hcode, hsent⟩ := hrefused "a\nb" rfl (by decide)
  exact ⟨hremoval, hbroken, by decide +kernel, ⟨log, h, hthrough⟩, hcode, hsent⟩

end

end CommandLine
end HostedRepo
