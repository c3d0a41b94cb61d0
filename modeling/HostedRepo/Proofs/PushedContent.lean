import HostedRepo.Proofs.CollectedFiles
import HostedRepo.Proofs.PlaceholderDeletion
import HostedRepo.Proofs.PushRequests
import HostedRepo.Proofs.TreeEntries
import HostedRepo.Proofs.Utf8Reading

/-!
# The content of pushed files

What a push that ends well has asked to be put at the path of each mapping. The entry holds a text
that is read out of the bytes of the local file, and this text has the same bytes exactly when they
are UTF-8.
-/

namespace HostedRepo

open Http Text

/-! ### The request for the new tree -/

namespace Client

lemma gitCall_sent {α : Type} {c : Client} {u : Except RemoteError Url} {message : String}
    {fields : List (String × String)} {m : Method} {body : Option Json.Value} {resource : String}
    {s : Json.Shape} {ofVal : s.Val → α} {w w' : Wire} {a : α}
    (h : (c.gitCall u message fields m [] body resource s ofVal).run w = (.ok a, w')) :
    ∃ v reqs, u = .ok v ∧ w'.sent = w.sent ++ reqs ∧
      ∃ q ∈ reqs, q.method = m ∧ q.url = v.target ∧ q.body = body := by
  obtain ⟨v, response, val, hsend, -, -, -, hu⟩ := gitCall_run_eq_ok h
  obtain ⟨e, he⟩ | ⟨x, w₁, hx, earlier, before, q, last, htrail, hcarries, -⟩ :=
    transmit_follows c.agent m v [] (c.headers acceptJson) body
      (w.report ⟨.debug, .gitObjects, message, fields⟩)
  · cases he.symm.trans hsend
  · obtain rfl : w₁ = w' := congrArg Prod.snd (hx.symm.trans hsend)
    have hfirst := List.mem_of_mem_head? (Option.mem_def.mpr htrail.head?_eq)
    refine ⟨v, _, hu, hcarries.sent, _, List.mem_map_of_mem hfirst, rfl, ?_, rfl⟩
    exact v.target_withoutUserinfo

end Client

/-- The acts of a push up to its new tree, and those after it. -/
lemma Repository.pushHistory_split (r : RepoName) (files : FileMap) (branch message : String)
    (v : PushReplies) : pushHistory r files branch message v =
      ((pipeline r files branch message v).take 2).map .answered ++
        .answered ⟨.createTree r v.tip (treeEntries files v.base.entries), .ok v.tree⟩ ::
          (((pipeline r files branch message v).drop 3).map .answered ++
            [.reported (pushedEvent r files branch v)]) := rfl

lemma PushJob.pushed_sends {j : PushJob} {c : Client} {a : Agent} {v : PushReplies} {w w' : Wire}
    (ht : Through (c.Takes a) w
      (Repository.pushHistory j.target j.files j.branch j.message v) w') :
    ∃ u reqs, c.gitEndpoint j.target ["trees"] = .ok u ∧ w'.sent = w.sent ++ reqs ∧
      ∃ q ∈ reqs, q.method = .post ∧ q.url = u.target ∧
        q.body = some (newTreeValue v.tip (Repository.treeEntries j.files v.base.entries)) := by
  rw [Repository.pushHistory_split] at ht
  obtain ⟨w₁, hbefore, ht⟩ := through_append_iff.mp ht
  obtain ⟨w₂, htree, hafter⟩ := through_cons_iff.mp ht
  have hasks (x : Answered) (hx : x ∈ j.pipeline v) : x.call.asks?.isSome = true :=
    pipeline_asks hx
  obtain ⟨qs₁, used₁, hc₁, -⟩ := through_sends hbefore fun x hx => by
    rw [History.answers_map] at hx
    exact hasks x (List.mem_of_mem_take hx)
  obtain ⟨qs₂, used₂, hc₂, -⟩ := through_sends hafter fun x hx => by
    rw [History.answers_append, History.answers_map] at hx
    rcases List.mem_append.mp hx with hx | hx
    · exact hasks x (List.mem_of_mem_drop hx)
    · cases hx
  have hrun : (c.createTree j.target v.tip (Repository.treeEntries j.files v.base.entries)).run w₁ =
      (.ok v.tree, w₂) := htree
  rw [Client.createTree_eq] at hrun
  obtain ⟨u, reqs, hu, hsent, q, hq, hmethod, hurl, hbody⟩ := Client.gitCall_sent hrun
  refine ⟨u, qs₁.map Request.onWire ++ reqs ++ qs₂.map Request.onWire, hu, ?_, q, ?_, hmethod,
    hurl, hbody⟩
  · rw [hc₂.sent, hsent, hc₁.sent, List.append_assoc, List.append_assoc, List.append_assoc]
  · simp [hq]

namespace Command

variable {c : Client} {r : RepoName} {branch message : String} {mappings : List Mapping} {w : World}

lemma push_performed
    (h : (((Command.push r branch message mappings).execute c).run w).1 = .ok ()) :
    ∃ files, Mapping.collect w.disk mappings = .ok files ∧
      (c.perform c.agent (Repository.push r files branch message)).run w.wire =
        (.ok (), (((Command.push r branch message mappings).execute c).run w).2.wire) := by
  cases hfirst : (Command.push r branch message mappings).firstFailure? w.disk with
  | some f =>
    rw [execute_run_of_failure hfirst] at h
    cases h
  | none =>
    obtain ⟨t, ht⟩ := exists_task (by simp) hfirst
    obtain ⟨files, hfiles, rfl⟩ := Option.map_eq_some_iff.mp ht
    have hcollect := toOption_eq_some_iff.mp hfiles
    obtain ⟨hwire, ⟨e, -, herror⟩ | ⟨u, hperform, -⟩⟩ := execute_performs (c := c) hfirst ht
    · rw [herror] at h
      cases h
    · exact ⟨files, hcollect, Prod.ext hperform hwire.symm⟩

/-- A push that ends well has sent a request for a new tree, which has one entry at the path of each
mapping. The text of this entry has the bytes of the local file exactly when these are UTF-8. -/
theorem push_sends_content
    (h : (((Command.push r branch message mappings).execute c).run w).1 = .ok ()) :
    ∃ u reqs q tip entries, c.gitEndpoint r ["trees"] = .ok u ∧
      (((Command.push r branch message mappings).execute c).run w).2.wire.sent =
        w.wire.sent ++ reqs ∧
      q ∈ reqs ∧ q.method = .post ∧ q.url = u.target ∧
      q.body = some (newTreeValue tip entries) ∧
      ∀ m ∈ mappings, ∃ content, w.disk.read m.source = .ok content ∧
        entries.filter (·.path = m.remote) = [.blob m.remote (Utf8.decodeLossy content)] ∧
        (Utf8.encode (Utf8.decodeLossy content) = content ↔
          (Utf8.decode? content).isSome = true) := by
  obtain ⟨files, hcollect, hperform⟩ := push_performed h
  obtain ⟨history, hyields, ht⟩ :=
    runOn_history c c.agent (Repository.push r files branch message).run w.wire
  have hrun : ((Repository.push r files branch message).run.runOn c c.agent).run w.wire = _ :=
    hperform
  change Plan.Yields _ history (((Repository.push r files branch message).run.runOn c c.agent).run
    w.wire).1 at hyields
  change Through _ _ _ (((Repository.push r files branch message).run.runOn c c.agent).run
    w.wire).2 at ht
  rw [hrun] at hyields ht
  obtain ⟨v, ⟨rfl, -⟩ | ⟨_, _, e, -, -, herror⟩⟩ := Repository.push_yields hyields
  · obtain ⟨u, reqs, hu, hsent, q, hq, hmethod, hurl, hbody⟩ :=
      PushJob.pushed_sends (j := ⟨r, files, branch, message⟩) ht
    refine ⟨u, reqs, q, _, _, hu, hsent, hq, hmethod, hurl, hbody, fun m hm => ?_⟩
    obtain ⟨hall, hbinds⟩ := Mapping.collect_eq_ok hcollect
    obtain ⟨content, hread⟩ := hall.readable m hm
    have hget : files.get? m.remote = some content :=
      (hbinds m.remote content).mpr ⟨m, hm, rfl, hread⟩
    exact ⟨content, hread, Repository.filter_treeEntries hget, Utf8.encode_decodeLossy_eq_iff⟩
  · cases herror

section

def jsonAnswer (text : String) : Response where
  status := 200
  body := Utf8.encode text

def branchAnswer (sha : String) : Response :=
  jsonAnswer ("\x7b\"ref\":\"refs/heads/main\",\"object\":\x7b\"sha\":\"" ++ sha ++
    "\",\"type\":\"commit\"\x7d\x7d")

def treeAnswer (sha : String) : Response :=
  jsonAnswer ("\x7b\"sha\":\"" ++ sha ++ "\",\"tree\":[]\x7d")

def commitAnswer (sha tree : String) : Response :=
  jsonAnswer ("\x7b\"sha\":\"" ++ sha ++ "\",\"tree\":\x7b\"sha\":\"" ++ tree ++ "\"\x7d\x7d")

/-- A world with one local file, whose wire answers all calls of a push. -/
def accepting (content : Bytes) : World where
  disk := { entries := [(["f"], .file content)] }
  wire := Wire.scripted "http"
    [branchAnswer "c0", treeAnswer "t0", treeAnswer "t1", commitAnswer "c1" "t1", branchAnswer "c1"]

/-- A text of two bytes. -/
theorem push_sends_content_text :
    let push := Command.push ⟨"o", "r"⟩ "main" "m" [⟨"f", "a/f"⟩]
    let w := accepting [0xc3, 0xa4]
    let out := (push.execute keyed).run w
    out.1 = .ok () ∧ ∃ u reqs q tip entries, keyed.gitEndpoint ⟨"o", "r"⟩ ["trees"] = .ok u ∧
      out.2.wire.sent = w.wire.sent ++ reqs ∧ q ∈ reqs ∧ q.method = .post ∧ q.url = u.target ∧
      q.body = some (newTreeValue tip entries) ∧
      ∀ m ∈ [(⟨"f", "a/f"⟩ : Mapping)], ∃ content, w.disk.read m.source = .ok content ∧
        entries.filter (·.path = m.remote) = [.blob m.remote (Utf8.decodeLossy content)] ∧
        (Utf8.encode (Utf8.decodeLossy content) = content ↔
          (Utf8.decode? content).isSome = true) := by
  intro push w out
  have hok : out.1 = .ok () := by decide +kernel
  exact ⟨hok, push_sends_content hok⟩

/-- A push of a file that is no text ends well, and its new tree has another content. -/
theorem push_rewrites_content :
    let push := Command.push ⟨"o", "r"⟩ "main" "m" [⟨"f", "f"⟩]
    let w := accepting [0xff]
    let out := (push.execute keyed).run w
    out.1 = .ok () ∧ w.disk.read "f" = .ok [0xff] ∧
      (out.2.wire.sent[2]?.map fun q => (q.method.name, q.url.text, q.body.map Json.Value.render)) =
        some ("POST", "http://api.test/repos/o/r/git/trees",
          some ("\x7b\"base_tree\":\"c0\",\"tree\":[\x7b\"path\":\"f\",\"mode\":\"100644\"," ++
            "\"type\":\"blob\",\"content\":\"\ufffd\"\x7d]\x7d")) ∧
      Utf8.encode "\ufffd" ≠ [0xff] := by
  decide +kernel

end

end Command

end HostedRepo
