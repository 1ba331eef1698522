import BankDemo.Sessions.Calls

/-!
# Revocation is permanent

Rotations and the access strategy write sessions they read some steps earlier, so a session may be
revoked in between. None of these writes touches `revokedAt`, except to set it: once a session is
revoked, it stays so until it is deleted (`Took.revoked`), and it does not come back, since only
`issueSession` makes sessions and draws a new identifier each time (`Took.made`).
-/

namespace BankDemo.Identity

open Crypto

variable {env : Env} {s₀ : Realm} {tr : List (Step Realm Call)} {P : Pool Realm Error Answer Call}

/-- The step reads the session `id`: the lookup of `validate`, and that of `rotateRefresh`. -/
def Reads (env : Env) (id : Uuid) (x : Step Realm Call) (before : List (Realm × Realm)) : Prop :=
  match x.call with
  | .validate now text => before = [] ∧ ((verifyAccess now text).bind Claims.sid) = some id
  | .rotateRefresh _ _ _ presented => before.length = 1 ∧
      ((x.pre.db.sessions.findRow fun s => s.refreshTokenHash = env.sha256 presented).map
        Prod.fst) = some id
  | _ => False

/-- The session is revoked or not there. -/
def Revoked (id : Uuid) (w : Realm) : Prop :=
  ∀ s, w.db.sessions.lookup id = some s → s.revokedAt.isSome

/-- No step takes a revocation back. -/
theorem Took.revoked {c : Call} {w w' : Realm} {own : List (Realm × Realm)}
    (h : Took env c ((w, w') :: own)) {id : Uuid} (hrevoked : Revoked id w)
    (hmade : w.db.sessions.lookup id = none → w'.db.sessions.lookup id = none) :
    Revoked id w' := by
  intro s' hs'
  rcases h.session hs' with ⟨_, _, _, -, -, -, -, hnone⟩ | ⟨_, _, _, _, _, _, _, s, -, -, -, hs,
    -, -, rfl⟩ | ⟨s, hs, hkept⟩
  · rw [hmade hnone] at hs'
    cases hs'
  · exact hrevoked s hs
  · exact hkept.revoked (hrevoked s hs)

/-! ## Every run -/

/-- A session was there at the beginning, or it was made by a step of the run. -/
theorem session_origin {ok : Call → Prop} (hrun : SessionRun env ok s₀ tr P) {id : Uuid}
    {s : Session} (hs : P.state.db.sessions.lookup id = some s) :
    (s₀.db.sessions.lookup id).isSome ∨ ∃ x ∈ tr, ∃ now ids input,
      x.call = .issueSession now ids input ∧ id = ids.sessionId := by
  refine hrun.induct (I := fun tr w => ∀ s, w.db.sessions.lookup id = some s →
    (s₀.db.sessions.lookup id).isSome ∨ ∃ x ∈ tr, ∃ now ids input,
      x.call = .issueSession now ids input ∧ id = ids.sessionId) ?_ ?_ s hs
  · intro s hs
    exact .inl (by rw [hs]; rfl)
  · intro later x earlier hsplit ih s' hs'
    cases hpre : x.pre.db.sessions.lookup id with
    | none =>
      obtain ⟨now, ids, input, hc, -, hid⟩ := (took_of_run hrun hsplit).made hpre hs'
      exact .inr ⟨x, List.mem_cons_self, now, ids, input, hc, hid⟩
    | some s =>
      rcases ih s hpre with hold | ⟨y, hy, hmade⟩
      · exact .inl hold
      · exact .inr ⟨y, List.mem_cons_of_mem _ hy, hmade⟩

/-- A session that was there once is not made again. -/
theorem not_made_again {ok : Call → Prop} (hrun : SessionRun env ok s₀ tr P) (hfresh : Fresh s₀ P)
    {late mid earlier : List (Step Realm Call)} {x : Step Realm Call}
    (hsplit : tr = late ++ x :: (mid ++ earlier)) {id : Uuid} {s : Session}
    (hs : (reached s₀ earlier).db.sessions.lookup id = some s)
    (hnone : x.pre.db.sessions.lookup id = none) : x.post.db.sessions.lookup id = none := by
  by_contra hsome
  obtain ⟨s', hs'⟩ := Option.ne_none_iff_exists'.1 hsome
  obtain ⟨now, ids, input, hc, hown, hid⟩ := (took_of_run hrun hsplit).made hnone hs'
  obtain ⟨t, ht, htc⟩ := hrun.thread_of_step (show x ∈ tr by rw [hsplit]; simp)
  have hdraws : id ∈ t.call.draws := by
    rw [htc, hc, hid]
    exact List.mem_cons_self
  -- the run up to where the session was there
  have hbefore : tr = (late ++ x :: mid) ++ earlier := by
    rw [hsplit]
    simp
  obtain ⟨P', hrun', hstate⟩ := hrun.upto hbefore
  rw [← hstate] at hs
  rcases session_origin hrun' hs with hold | ⟨y, hy, now', ids', input', hyc, hyid⟩
  · rw [hfresh.unused t (List.mem_of_getElem? ht) id hdraws] at hold
    cases hold
  · have hytr : y ∈ tr := by
      rw [hsplit]
      simp [hy]
    obtain ⟨t', ht', htc'⟩ := hrun.thread_of_step hytr
    have hdraws' : id ∈ t'.call.draws := by
      rw [htc', hyc, hyid]
      exact List.mem_cons_self
    have htid := hfresh.tid_eq ht ht' hdraws hdraws'
    have hmem : (y.pre, y.post) ∈ own x.tid (mid ++ earlier) :=
      mem_own.2 ⟨y, List.mem_append_right _ hy, htid.symm, rfl, rfl⟩
    rw [hown] at hmem
    cases hmem

/-- A call that reads a revoked session, or one that is gone, does not succeed. -/
theorem reader_rejects {ok : Call → Prop} (hrun : SessionRun env ok s₀ tr P)
    {later earlier : List (Step Realm Call)} {x : Step Realm Call}
    (hsplit : tr = later ++ x :: earlier) {id : Uuid} (hreads : Reads env id x (own x.tid earlier))
    (hrevoked : Revoked id x.pre) {t : Thread Realm Error Answer Call}
    (ht : P.threads[x.tid]? = some t) (a : Answer) : t.rest ≠ .ret a := by
  intro hrest
  obtain ⟨t', ht', hcall⟩ := hrun.thread_of_step (show x ∈ tr by rw [hsplit]; simp)
  obtain rfl := Option.some.inj (ht'.symm.trans ht)
  have hpromise : Promise env x.call (own x.tid tr) (.ok a) := by
    have hdoes := promise_of_run hrun ht
    rw [hrest, hcall] at hdoes
    exact hdoes
  rw [own_split hsplit] at hpromise
  unfold Reads at hreads
  cases hc : x.call with
  | validate now text =>
    rw [hc] at hpromise hreads
    obtain ⟨hnil, hsid⟩ := hreads
    obtain ⟨w, claims, sid, s, before, hvalid, hown⟩ := hpromise
    rw [hnil] at hown
    obtain ⟨-, hfirst⟩ := List.append_inj' hown rfl
    obtain ⟨rfl, -⟩ := Prod.mk.inj (List.singleton_inj.1 hfirst)
    rw [hvalid.verified, Option.bind_some, hvalid.sid_eq] at hsid
    obtain rfl := Option.some.inj hsid
    have hsome := hrevoked s hvalid.found
    rw [hvalid.unrevoked] at hsome
    cases hsome
  | rotateRefresh now accessJti refreshJti presented =>
    rw [hc] at hpromise hreads
    obtain ⟨hlength, hfind⟩ := hreads
    obtain ⟨first, hfirst⟩ := List.length_eq_one_iff.1 hlength
    obtain ⟨r, w₁, w₂, w₃, sid, read, s, -, -, hfound, -, hown⟩ := hpromise
    rw [hfirst] at hown
    obtain ⟨-, hlast⟩ := List.append_inj' (hown.trans (List.singleton_append.symm)) rfl
    obtain ⟨hsecond, -⟩ := List.cons.inj hlast
    obtain ⟨rfl, -⟩ := Prod.mk.inj hsecond
    rw [hfound.found] at hfind
    obtain rfl := Option.some.inj hfind
    have hsome := hrevoked read hfound.waiting.1
    rw [hfound.unrevoked] at hsome
    cases hsome
  | _ =>
    rw [hc] at hreads
    exact hreads

/-- **Revocation is permanent.** In every run of session calls, from the moment a session is
revoked: it is revoked in every later state in which it is there; no later step makes it again; and
no call that reads it later succeeds. -/
theorem revocation_permanent (env : Env) (s₀ : Realm) (tr : List (Step Realm Call))
    (P : Pool Realm Error Answer Call) (hrun : SessionRun env (fun _ => True) s₀ tr P)
    (hfresh : Fresh s₀ P) (later earlier : List (Step Realm Call)) (hsplit : tr = later ++ earlier)
    (id : Uuid) (s : Session) (hs : (reached s₀ earlier).db.sessions.lookup id = some s)
    (hrevoked : s.revokedAt.isSome) :
    (∀ x ∈ later, ∀ s', x.post.db.sessions.lookup id = some s' → s'.revokedAt.isSome) ∧
    (∀ x ∈ later, x.pre.db.sessions.lookup id = none → x.post.db.sessions.lookup id = none) ∧
    ∀ late x mid, later = late ++ x :: mid → Reads env id x (own x.tid (mid ++ earlier)) →
      ∀ t, P.threads[x.tid]? = some t → ∀ a, t.rest ≠ .ret a := by
  have hjoin : ∀ late x mid, later = late ++ x :: mid → tr = late ++ x :: (mid ++ earlier) := by
    intro late x mid hlater
    rw [hsplit, hlater]
    simp
  have hmade : ∀ late x mid, later = late ++ x :: mid → x.pre.db.sessions.lookup id = none →
      x.post.db.sessions.lookup id = none := fun late x mid hlater =>
    not_made_again hrun hfresh (hjoin late x mid hlater) hs
  have hstart : Revoked id (reached s₀ earlier) := by
    intro s' hs'
    obtain rfl := Option.some.inj (hs.symm.trans hs')
    exact hrevoked
  obtain ⟨hkeeps, -⟩ := hrun.keeps hsplit hstart fun late x mid hlater hpre =>
    (took_of_run hrun (hjoin late x mid hlater)).revoked hpre (hmade late x mid hlater)
  refine ⟨fun x hx => (hkeeps x hx).2, fun x hx => ?_, fun late x mid hlater hreads t ht a => ?_⟩
  · obtain ⟨mid, late, hlater⟩ := List.append_of_mem hx
    exact hmade mid x late hlater
  · have hx : x ∈ later := by
      rw [hlater]
      simp
    exact reader_rejects hrun (hjoin late x mid hlater) hreads (hkeeps x hx).1 ht a

/-- Ann signs in, an admin revokes her session, and a request of hers comes in. -/
def sampleRevoked : List (Choice Call) :=
  [.call (sampleIssue 100), .step 0, .call (.adminRevoke 1000 100), .step 1, .step 1,
    .call (.validate 2000 (sampleAccess 100)), .step 2]

theorem revocation_permanent_sample :
    (exec (fun _ => handle sampleEnv) sampleRealm sampleRevoked).1.length = 4 ∧
      ∀ x ∈ (exec (fun _ => handle sampleEnv) sampleRealm sampleRevoked).1.take 1, ∀ s',
        x.post.db.sessions.lookup 100 = some s' → s'.revokedAt.isSome := by
  refine ⟨by decide +kernel, ?_⟩
  refine (revocation_permanent sampleEnv sampleRealm _ _ (exec_run sampleRevoked fun _ _ => trivial)
    ⟨by decide +kernel, by decide +kernel⟩ _ _ (List.take_append_drop 1 _).symm 100
    (revoke 1000 .adminRevoke (issuedRow sampleEnv 0 ⟨100, 101, 102, 103⟩ ⟨1, 11, .customer⟩))
    (by decide +kernel) rfl).1

end BankDemo.Identity
