import HostedRepo.Proofs.PushPipeline
import Mathlib.Data.List.DropRight

/-!
# Deletions of folders

The deletion of folders makes one call for each folder, in order, and stops at the first reply that
is neither a success nor says that the placeholder was not there. A name of nothing but slashes
anywhere in the list keeps it from making any call.
-/

namespace HostedRepo.Repository

open Operation

/-- The call that deletes the placeholder of a folder. -/
def removal (r : RepoName) (folder : String) : Call :=
  .deleteFile r (folder ++ "/.gitkeep") ⟨"Delete folder " ++ folder, none, some "main"⟩

/-- A reply after which a folder is gone: a success, or the placeholder was not there. -/
def Gone (reply : Except RemoteError Unit) : Prop :=
  reply = .ok () ∨ ∃ what, reply = .error (.notFound what)

/-- What is reported of a folder that is gone. -/
def goneEvent (r : RepoName) (folder : String) (reply : Except RemoteError Unit) : Log.Event :=
  let fields := repoFields r ++ [("folder", folder)]
  match reply with
  | .ok _ => ⟨.info, .operations, "deleted folder", fields⟩
  | .error _ => ⟨.debug, .operations, "placeholder already absent", fields⟩

/-- The histories of the deletion of folders one after the other, with their results. -/
inductive Removes (r : RepoName) : List String → History → Except RemoteError Unit → Prop
  | nil : Removes r [] [] (.ok ())
  | pass {folder : String} {folders : List String} {reply x : Except RemoteError Unit}
    {h : History} : Gone reply → Removes r folders h x →
      Removes r (folder :: folders) (.answered ⟨removal r folder, reply⟩ ::
        .reported (goneEvent r folder reply) :: h) x
  | stop {folder : String} {folders : List String} {e : RemoteError} : ¬ Gone (.error e) →
      Removes r (folder :: folders) [.answered ⟨removal r folder, .error e⟩] (.error e)

section

variable {r : RepoName} {folder : String} {folders : List String} {h : History}
  {x : Except RemoteError Unit}

lemma gone_ok : Gone (.ok ()) := .inl rfl

/-- One folder: the call comes first, and its reply decides whether the rest follows. -/
lemma run_deleteDir_bind (r : RepoName) (folder : String) (f : Unit → Operation Unit) :
    ∃ next, (deleteDir r folder >>= f).run = .call (removal r folder) next ∧
      (∀ reply, Gone reply → next reply = .log (goneEvent r folder reply) (f ()).run) ∧
      ∀ e, ¬ Gone (.error e) → next (.error e) = .done (.error e) := by
  have hpath : placeholderPath folder = folder ++ "/.gitkeep" := String.append_assoc ..
  unfold removal
  rw [← hpath]
  refine ⟨_, rfl, ?_, ?_⟩
  · rintro _ (rfl | ⟨what, rfl⟩) <;> rfl
  · intro e he
    cases e with
    | notFound what => exact absurd (.inr ⟨what, rfl⟩) he
    | _ => rfl

/-- The deletion of folders is one call after the other up to the first failure. -/
theorem forM_deleteDir_yields_iff :
    (folders.forM (deleteDir r)).run.Yields h x ↔ Removes r folders h x := by
  have hcons (folder : String) (folders : List String) :
      ((folder :: folders).forM (deleteDir r)).run =
        (deleteDir r folder >>= fun _ => folders.forM (deleteDir r)).run := rfl
  constructor
  · intro hy
    induction folders generalizing h with
    | nil =>
      obtain ⟨rfl, hx⟩ := Plan.leaves_done_iff.mp hy
      cases hx
      exact .nil
    | cons folder folders ih =>
      obtain ⟨next, hrun, hgone, hfailed⟩ :=
        run_deleteDir_bind r folder fun _ => folders.forM (deleteDir r)
      rw [hcons, hrun] at hy
      obtain ⟨-, hdone⟩ | ⟨reply, h', rfl, hnext⟩ := Plan.leaves_call_iff.mp hy
      · cases hdone
      by_cases hreply : Gone reply
      · rw [hgone reply hreply] at hnext
        obtain ⟨-, hdone⟩ | ⟨h'', rfl, hrest⟩ := Plan.leaves_log_iff.mp hnext
        · cases hdone
        · exact .pass hreply (ih hrest)
      · cases reply with
        | ok a => exact absurd gone_ok hreply
        | error e =>
          rw [hfailed e hreply] at hnext
          obtain ⟨rfl, hx⟩ := Plan.leaves_done_iff.mp hnext
          cases hx
          exact .stop hreply
  · intro hd
    induction hd with
    | nil => exact .stay _
    | @pass folder folders reply x h hreply _ ih =>
      obtain ⟨next, hrun, hgone, -⟩ :=
        run_deleteDir_bind r folder fun _ => folders.forM (deleteDir r)
      rw [hcons, hrun]
      refine .call (c := removal r folder) reply ?_
      rw [hgone reply hreply]
      exact .report ih
    | @stop folder folders e he =>
      obtain ⟨next, hrun, -, hfailed⟩ :=
        run_deleteDir_bind r folder fun _ => folders.forM (deleteDir r)
      rw [hcons, hrun]
      refine .call (c := removal r folder) (.error e) ?_
      rw [hfailed e he]
      exact .stay _

/-! ### The names of folders -/

/-- The characters of a name without the slashes at its two ends. -/
def trimmed (folder : String) : List Char :=
  (folder.toList.dropWhile (· = '/')).rdropWhile (· = '/')

lemma isRoot_iff_trimmed : isRoot folder = true ↔ trimmed folder = [] := by
  rw [isRoot, trimmed, List.rdropWhile_eq_nil_iff]
  constructor
  · intro hall c hc
    have hslash := List.all_eq_true.mp hall c ((List.dropWhile_sublist _).mem hc)
    simpa using hslash
  · intro hall
    have hnil : folder.toList.dropWhile (· = '/') = [] := by
      by_contra hne
      exact Bool.false_ne_true ((List.head_dropWhile_not _ hne).symm.trans
        (hall _ (List.head_mem hne)))
    have hslash := List.dropWhile_eq_nil_iff.mp hnil
    exact List.all_eq_true.mpr fun c hc => by simpa using hslash c hc

lemma deleteDirs_of_root {before after : List String} (hbefore : ∀ f ∈ before, trimmed f ≠ [])
    (hfolder : trimmed folder = []) :
    deleteDirs r (before ++ folder :: after) =
      throw (.invalidPath folder "folder name is empty") := by
  have hfind : (before ++ folder :: after).find? isRoot = some folder := by
    rw [List.find?_append, List.find?_eq_none.mpr, Option.none_or, List.find?_cons_of_pos]
    · exact isRoot_iff_trimmed.mpr hfolder
    · exact fun f hf hroot => hbefore f hf (isRoot_iff_trimmed.mp hroot)
  rw [deleteDirs, hfind]

lemma deleteDirs_of_named (h : ∀ f ∈ folders, trimmed f ≠ []) :
    deleteDirs r folders = folders.forM (deleteDir r) := by
  have hfind : folders.find? isRoot = none :=
    List.find?_eq_none.mpr fun f hf hroot => h f hf (isRoot_iff_trimmed.mp hroot)
  rw [deleteDirs, hfind]

lemma deleteDirs_yields_iff (hnamed : ∀ f ∈ folders, trimmed f ≠ []) :
    (deleteDirs r folders).run.Yields h x ↔ Removes r folders h x := by
  rw [deleteDirs_of_named hnamed]
  exact forM_deleteDir_yields_iff

/-! ### Folders and replies -/

/-- The folders that are gone after a deletion, and where it has stopped. -/
theorem Removes.split (hd : Removes r folders h x) :
    ∃ gone later, folders = gone ++ later ∧
      (∀ (i : Nat) f, gone[i]? = some f →
        ∃ reply, h.answers[i]? = some (Answered.mk (removal r f) reply) ∧ Gone reply) ∧
      ((later = [] ∧ x = .ok () ∧ h.answers.map (·.call) = gone.map (removal r)) ∨
        ∃ f rest e, later = f :: rest ∧
          h.answers[gone.length]? = some (Answered.mk (removal r f) (.error e)) ∧
          ¬ Gone (.error e) ∧ x = .error e ∧
          h.answers.map (·.call) = (gone ++ [f]).map (removal r)) := by
  induction hd with
  | nil => exact ⟨[], [], rfl, nofun, .inl ⟨rfl, rfl, rfl⟩⟩
  | @stop folder folders e he =>
    exact ⟨[], folder :: folders, rfl, nofun,
      .inr ⟨folder, folders, e, rfl, rfl, he, rfl, rfl⟩⟩
  | @pass folder folders reply x h hreply _ ih =>
    obtain ⟨gone, later, rfl, hgone, hend⟩ := ih
    refine ⟨folder :: gone, later, rfl, fun i f hf => ?_, ?_⟩
    · cases i with
      | zero =>
        cases hf
        exact ⟨reply, rfl, hreply⟩
      | succ i => exact hgone i f hf
    · obtain ⟨hlater, hx, hcalls⟩ | ⟨f, rest, e, hlater, hfailed, he, hx, hcalls⟩ := hend
      · exact .inl ⟨hlater, hx, by simp [hcalls]⟩
      · exact .inr ⟨f, rest, e, hlater, hfailed, he, hx, by simp [hcalls]⟩

end

/-- For all replies of the remote side, a name without a folder keeps the deletion from making any
call. Otherwise the calls are those for a beginning of the list, each folder once and in order. A
placeholder that was not there counts as deleted; any other error ends the deletion. -/
theorem deleteDirs_calls_in_order {σ : Type} (fetch : Url → σ → Except RemoteError Bytes × σ)
    (r : RepoName) (folders : List String) (s : Script) (w : σ) :
    let out := (deleteDirs r folders).run.runScript fetch s w
    (∀ before folder after, folders = before ++ folder :: after →
      (∀ f ∈ before, trimmed f ≠ []) → trimmed folder = [] →
        out.1 = .error (.invalidPath folder "folder name is empty") ∧ out.2 = (s, w)) ∧
    ((∀ f ∈ folders, trimmed f ≠ []) →
      ∃ gone later, folders = gone ++ later ∧
        (∀ (i : Nat) f, gone[i]? = some f → Gone (s.reply i (removal r f))) ∧
        ((later = [] ∧ out.1 = .ok () ∧ out.2.1.calls = s.calls ++ gone.map (removal r)) ∨
          ∃ f rest e, later = f :: rest ∧ s.reply gone.length (removal r f) = .error e ∧
            ¬ Gone (.error e) ∧ out.1 = .error e ∧
            out.2.1.calls = s.calls ++ (gone ++ [f]).map (removal r))) := by
  intro out
  refine ⟨fun before folder after hfolders hbefore hfolder => ?_, fun hnamed => ?_⟩
  · have hrun : out = (.error (.invalidPath folder "folder name is empty"), s, w) := by
      subst hfolders
      change (deleteDirs r (before ++ folder :: after)).run.runScript fetch s w = _
      rw [deleteDirs_of_root hbefore hfolder]
      rfl
    rw [hrun]
    exact ⟨rfl, rfl⟩
  · obtain ⟨h, hy, ht⟩ := runScript_history fetch (deleteDirs r folders).run s w
    obtain ⟨hcalls, hreplies⟩ := Script.through_takes ht
    obtain ⟨gone, later, hsplit, hgone, hend⟩ := ((deleteDirs_yields_iff hnamed).mp hy).split
    refine ⟨gone, later, hsplit, fun i f hf => ?_, ?_⟩
    · obtain ⟨reply, hi, hreply⟩ := hgone i f hf
      have hs : reply = s.reply i (removal r f) := hreplies i _ hi
      exact hs ▸ hreply
    · obtain ⟨hlater, hx, hmade⟩ | ⟨f, rest, e, hlater, hi, he, hx, hmade⟩ := hend
      · exact .inl ⟨hlater, hx, by rw [hcalls, hmade]⟩
      · have hs : .error e = s.reply gone.length (removal r f) := hreplies gone.length _ hi
        exact .inr ⟨f, rest, e, hlater, hs.symm, he, hx, by rw [hcalls, hmade]⟩

/-- A reply to a deletion. -/
def deletes (reply : Except RemoteError Unit) : Script.Reply where
  answer
    | .deleteFile _ _ _ => reply
    | _ => .error (.unexpected "not a deletion")

/-- The third of four folders is refused, and the second of two has no name. -/
theorem deleteDirs_calls_in_order_refused :
    let r : RepoName := ⟨"o", "r"⟩
    let s : Script := ⟨[deletes (.ok ()), deletes (.error (.notFound "b/.gitkeep")),
      deletes (.error (.refused 403 "no"))], [], []⟩
    let run folders := (deleteDirs r folders).run.runScript (fun _ w => (.ok [], w)) s ()
    ((∀ f ∈ ["a"], trimmed f ≠ []) ∧ trimmed "//" = [] ∧
      (run ["a", "//"]).1 = .error (.invalidPath "//" "folder name is empty") ∧
      (run ["a", "//"]).2 = (s, ())) ∧
    (∀ f ∈ ["a", "b", "c", "d"], trimmed f ≠ []) ∧
      ∃ gone later, ["a", "b", "c", "d"] = gone ++ later ∧
        (∀ (i : Nat) f, gone[i]? = some f → Gone (s.reply i (removal r f))) ∧
        ((later = [] ∧ (run ["a", "b", "c", "d"]).1 = .ok () ∧
            (run ["a", "b", "c", "d"]).2.1.calls = s.calls ++ gone.map (removal r)) ∨
          ∃ f rest e, later = f :: rest ∧ s.reply gone.length (removal r f) = .error e ∧
            ¬ Gone (.error e) ∧ (run ["a", "b", "c", "d"]).1 = .error e ∧
            (run ["a", "b", "c", "d"]).2.1.calls = s.calls ++ (gone ++ [f]).map (removal r)) := by
  intro r s run
  have ha : ∀ f ∈ ["a"], trimmed f ≠ [] := by decide +kernel
  have hroot : trimmed "//" = [] := by decide +kernel
  have hnamed : ∀ f ∈ ["a", "b", "c", "d"], trimmed f ≠ [] := by decide +kernel
  have hnone := (deleteDirs_calls_in_order (fun _ w => (.ok [], w)) r ["a", "//"] s ()).1
    ["a"] "//" [] rfl ha hroot
  exact ⟨⟨ha, hroot, hnone⟩, hnamed, (deleteDirs_calls_in_order _ r _ s ()).2 hnamed⟩

end HostedRepo.Repository
