import BankDemo.Insights.Service
import BankDemo.System.Calls

/-!
# Charts from the cache

A chart that a customer is sent was made of the customer's own accounts: by the request itself, or by
an earlier one with the same question whose chart was put into the cache less than the time to live
before. Nothing from before an invalidation that ran to its end is sent after it (`charts_served`).
-/

namespace BankDemo.Insights

open Prog UuidText

variable {env : Env}

/-! ## What the calls do -/

/-- The customer, the account and the question of a call at a time. -/
def Call.asks (now : Instant) : Call → Option (Uuid × Option String × Question)
  | .monthly userId accountId months _ => some (userId, accountId, .monthly months)
  | .byCategory userId accountId monthStart _ =>
    some (userId, accountId, .byCategory (monthStart.getD (startOfCurrentMonth now)))
  | _ => none

/-- Accounts of the customer, and no other one than that asked for. -/
def Owned (db : Db) (userId : Uuid) (accountId : Option String) (ids : List Uuid) : Prop :=
  ∀ id ∈ ids, (∃ account, db.accounts.lookup id = some account ∧ account.userId = userId) ∧
    ∀ name, JsString.orElse accountId none = some name → uuidText id = name

/-- The call asked, and was given the accounts. -/
def Asked (c : Call) (own : List (State × State)) (userId : Uuid) (accountId : Option String)
    (q : Question) (ids : List Uuid) : Prop :=
  ∃ s, (s, s) ∈ own ∧ c.asks s.now = some (userId, accountId, q) ∧
    resolveAccountIds s.db userId accountId = .ok ids ∧ Owned s.db userId accountId ids

/-- The call asked, and then made the chart of what the database said. -/
def Made (c : Call) (own : List (State × State)) (userId : Uuid) (accountId : Option String)
    (q : Question) (chart : Chart) : Prop :=
  ∃ ids, Asked c own userId accountId q ids ∧
    ∃ s, (s, s) ∈ own ∧ chart = q.result s.db ids s.now

/-- What a step makes of the cache. -/
inductive CacheStep (env : Env) (c : Call) (own : List (State × State)) (s s' : State) : Prop
  | same (h : s'.cache = s.cache)
  | set {userId : Uuid} {accountId : Option String} {q : Question} {chart : Chart}
      (hmade : Made c own userId accountId q chart)
      (h : s' = s.set env (q.cacheKey userId accountId) chart)
  | del {keys : List String} (h : s' = s.del keys)

/-- The steps of a call so far. -/
def Did (env : Env) (c : Call) : List (State × State) → Prop
  | [] => True
  | (s, s') :: own => CacheStep env c own s s'

/-- Where the chart of a call is from. -/
inductive Source (c : Call) (own : List (State × State)) (userId : Uuid)
    (accountId : Option String) (q : Question) (chart : Chart) : Prop
  | nothing (hasked : Asked c own userId accountId q []) (h : chart = q.none)
  | made (h : Made c own userId accountId q chart)
  | cached {s : State} {ids : List Uuid} (hasked : Asked c own userId accountId q ids)
      (hmem : (s, s) ∈ own) (h : s.get (q.cacheKey userId accountId) = some chart)

/-- Every part of the cache was searched for keys of a pattern, and those found were deleted. -/
def Swept (env : Env) (pattern : String) (cursors : List ℕ) (own : List (State × State)) : Prop :=
  ∀ cursor ∈ cursors, ∃ s, (s, s) ∈ own ∧ (scan env pattern cursor s = [] ∨
    ∃ t, (t, t.del (scan env pattern cursor s)) ∈ own)

/-- Every command was answered. -/
def Complete (env : Env) (answers : ℕ → Link) : Prop :=
  ∀ cursor ∈ List.range (env.buckets + 1), answers cursor = ⟨true, true⟩

/-- What a call ends with. -/
def Ended (env : Env) (c : Call) (own : List (State × State)) :
    Except Error (Option Chart) → Prop
  | .ok (some chart) => ∃ userId accountId q, Source c own userId accountId q chart
  | .ok none => ∀ userId answers, c = .invalidate userId answers → Complete env answers →
    Swept env ("insights:*:" ++ uuidText userId ++ ":*") (List.range (env.buckets + 1)) own
  | .error _ => True

theorem resolveAccountIds_owned {db : Db} {userId : Uuid} {accountId : Option String}
    {ids : List Uuid} (h : resolveAccountIds db userId accountId = .ok ids) :
    Owned db userId accountId ids := by
  have hall : ∀ id ∈ (db.accounts.entries.filter fun e => e.2.userId = userId).map Sigma.fst,
      ∃ account, db.accounts.lookup id = some account ∧ account.userId = userId := by
    intro id hid
    obtain ⟨⟨id', account⟩, he, rfl⟩ := List.mem_map.1 hid
    obtain ⟨hentry, howner⟩ := List.mem_filter.1 he
    exact ⟨account, Table.mem_entries_iff.1 hentry, of_decide_eq_true howner⟩
  unfold resolveAccountIds at h
  dsimp only at h
  intro id hid
  cases hname : JsString.orElse accountId none with
  | none =>
    rw [hname] at h
    cases h
    exact ⟨hall id hid, fun name hnone => by cases hnone⟩
  | some name =>
    rw [hname] at h
    dsimp only at h
    split at h
    · cases h
      obtain ⟨hmem, htext⟩ := List.mem_filter.1 hid
      refine ⟨hall id hmem, fun name' heq => ?_⟩
      rw [← Option.some.inj heq]
      exact of_decide_eq_true htext
    · cases h

theorem Asked.mono {c : Call} {own own' : List (State × State)} {userId : Uuid}
    {accountId : Option String} {q : Question} {ids : List Uuid} (hsub : own ⊆ own')
    (h : Asked c own userId accountId q ids) : Asked c own' userId accountId q ids := by
  obtain ⟨s, hmem, hrest⟩ := h
  exact ⟨s, hsub hmem, hrest⟩

theorem Made.mono {c : Call} {own own' : List (State × State)} {userId : Uuid}
    {accountId : Option String} {q : Question} {chart : Chart} (hsub : own ⊆ own')
    (h : Made c own userId accountId q chart) : Made c own' userId accountId q chart := by
  obtain ⟨ids, hasked, s, hmem, hchart⟩ := h
  exact ⟨ids, hasked.mono hsub, s, hsub hmem, hchart⟩

theorem answer_does {c : Call} {userId : Uuid} {accountId : Option String} {link : Link}
    {question : Instant → Question}
    (hasks : ∀ now, c.asks now = some (userId, accountId, question now)) :
    (answer env userId accountId link question).Does (Did env c) (fun own r => match r with
      | .ok chart => ∃ userId accountId q, Source c own userId accountId q chart
      | .error _ => True) [] := by
  refine does_bind (does_attempt (fun s a s' _ hbody => ?_) fun s e _ _ => ⟨.same rfl, trivial⟩)
  obtain ⟨ids, hids, heq⟩ : ∃ ids, resolveAccountIds s.db userId accountId = .ok ids ∧
      ((ids, question s.now), s) = (a, s') := by
    cases hresolve : resolveAccountIds s.db userId accountId with
    | error e =>
      rw [hresolve] at hbody
      cases hbody
    | ok ids =>
      rw [hresolve] at hbody
      exact ⟨ids, rfl, Except.ok.inj hbody⟩
  obtain ⟨rfl, rfl⟩ := Prod.mk.inj heq
  have hasked : ∀ own, (s, s) ∈ own → Asked c own userId accountId (question s.now) ids :=
    fun own hmem => ⟨s, hmem, hasks s.now, hids, resolveAccountIds_owned hids⟩
  refine ⟨.same rfl, ?_⟩
  dsimp only
  split
  · next hnone =>
    have hfirst := hasked [(s, s)] List.mem_cons_self
    rw [hnone] at hfirst
    exact ⟨_, _, _, .nothing hfirst rfl⟩
  · refine does_bind (does_read fun g => ⟨.same rfl, ?_⟩)
    dsimp only
    cases hcached : if link.reads then
        g.get ((question s.now).cacheKey userId accountId) else none with
    | some chart =>
      have hget : g.get ((question s.now).cacheKey userId accountId) = some chart := by
        split at hcached
        · exact hcached
        · cases hcached
      exact ⟨_, _, _, .cached (hasked _ (by simp)) (by simp) hget⟩
    | none =>
      refine does_bind (does_read fun t => ⟨.same rfl, ?_⟩)
      have hmade : ∀ own, (s, s) ∈ own → (t, t) ∈ own → Made c own userId accountId
          (question s.now) ((question s.now).result t.db ids t.now) :=
        fun own hs ht => ⟨ids, hasked own hs, t, ht, rfl⟩
      refine does_bind (does_modify fun w _ => ⟨?_, ?_⟩)
      · cases link.writes with
        | true => exact .set (hmade _ (by simp) (by simp)) rfl
        | false => exact .same rfl
      · exact ⟨_, _, _, .made (hmade _ (by simp) (by simp))⟩

theorem delEach_does {c : Call} {pattern : String} {answers : ℕ → Link} (cursors : List ℕ)
    (own : List (State × State)) :
    (delEach env pattern answers cursors).Does (Did env c) (fun own' r => match r with
      | .ok _ => (∀ cursor ∈ cursors, answers cursor = ⟨true, true⟩) →
        Swept env pattern cursors own'
      | .error _ => True) own := by
  induction cursors generalizing own with
  | nil => exact fun _ cursor hmem => absurd hmem List.not_mem_nil
  | cons cursor rest ih =>
    unfold delEach
    split
    · next hreads =>
      intro hanswers
      rw [hanswers cursor List.mem_cons_self] at hreads
      cases hreads
    · refine does_bind (does_read fun s => ⟨.same rfl, ?_⟩)
      dsimp only
      split
      · next hnothing =>
        refine (ih ((s, s) :: own)).grows.imp (fun _ h => h) fun own' r hr => ?_
        cases r with
        | error e => trivial
        | ok u =>
          obtain ⟨hswept, hsub⟩ := hr
          intro hanswers
          refine List.forall_mem_cons.2 ⟨⟨s, hsub List.mem_cons_self, .inl hnothing⟩, ?_⟩
          exact hswept fun cursor' hmem => hanswers cursor' (List.mem_cons_of_mem _ hmem)
      · split
        · next hwrites =>
          intro hanswers
          rw [hanswers cursor List.mem_cons_self] at hwrites
          cases hwrites
        · refine does_bind (does_modify fun t _ => ⟨.del rfl, ?_⟩)
          refine (ih ((t, t.del (scan env pattern cursor s)) :: (s, s) :: own)).grows.imp
            (fun _ h => h) fun own' r hr => ?_
          cases r with
          | error e => trivial
          | ok u =>
            obtain ⟨hswept, hsub⟩ := hr
            intro hanswers
            refine List.forall_mem_cons.2 ⟨⟨s, hsub (by simp), .inr ⟨t, hsub (by simp)⟩⟩, ?_⟩
            exact hswept fun cursor' hmem => hanswers cursor' (List.mem_cons_of_mem _ hmem)

/-- What every call does. -/
theorem handle_does (c : Call) : (handle env c).Does (Did env c) (Ended env c) [] := by
  cases c with
  | monthly userId accountId months link =>
    refine does_bind ((answer_does fun _ => rfl).imp (fun _ h => h) fun own r hr => ?_)
    cases r with
    | ok chart => exact hr
    | error e => trivial
  | byCategory userId accountId monthStart link =>
    refine does_bind ((answer_does fun _ => rfl).imp (fun _ h => h) fun own r hr => ?_)
    cases r with
    | ok chart => exact hr
    | error e => trivial
  | invalidate userId answers =>
    refine does_bind ((delEach_does _ _).imp (fun _ h => h) fun own r hr => ?_)
    cases r with
    | error e => trivial
    | ok u =>
      intro userId' answers' hc hcomplete
      cases hc
      exact hr hcomplete
  | bank change =>
    refine does_bind (does_modify fun s _ => ⟨.same rfl, ?_⟩)
    exact fun _ _ hc => by cases hc
  | clock ms =>
    refine does_bind (does_modify fun s _ => ⟨.same rfl, ?_⟩)
    exact fun _ _ hc => by cases hc

/-! ## Keys -/

/-- An account as it can be asked for: none, or the text of its id. -/
def Named (accountId : Option String) : Prop :=
  JsString.orElse accountId none = none ∨ ∃ id, accountId = some (uuidText id)

theorem Asked.named {c : Call} {own : List (State × State)} {userId : Uuid}
    {accountId : Option String} {q : Question} {ids : List Uuid}
    (h : Asked c own userId accountId q ids) : Named accountId := by
  obtain ⟨s, -, -, hids, -⟩ := h
  unfold resolveAccountIds at hids
  dsimp only at hids
  cases hid : JsString.orElse accountId none with
  | none => exact .inl hid
  | some id =>
    rw [hid] at hids
    dsimp only at hids
    split at hids
    · next hmem =>
      obtain ⟨a, -, hname⟩ := List.mem_map.1 (List.contains_iff_mem.1 hmem)
      refine .inr ⟨a, ?_⟩
      rw [hname]
      unfold JsString.orElse at hid
      split at hid
      · cases hid
      · cases hid
      · exact hid
    · cases hids

/-- The part of a key that says which account. -/
theorem colon_notMem_of_named {accountId : Option String} (h : Named accountId) :
    ':' ∉ (accountId.getD "all").toList := by
  rcases h with h | ⟨id, rfl⟩
  · unfold JsString.orElse at h
    split at h
    · decide
    · decide
    · cases h
  · exact colon_notMem_uuidText id

theorem named_inj {a b : Option String} (ha : Named a) (hb : Named b)
    (h : a.getD "all" = b.getD "all") : a = b := by
  have hshort : ∀ a : Option String, JsString.orElse a none = none → a = none ∨ a = some "" := by
    intro a ha
    unfold JsString.orElse at ha
    split at ha
    · exact .inr rfl
    · exact .inl rfl
    · cases ha
  have hlong : ∀ (a : Option String) (id : Uuid), JsString.orElse a none = none →
      a.getD "all" ≠ uuidText id := by
    intro a id ha heq
    have hlength := length_uuidText id
    rcases hshort a ha with rfl | rfl
    · rw [← heq] at hlength
      exact absurd hlength (by decide)
    · rw [← heq] at hlength
      exact absurd hlength (by decide)
  rcases ha with ha | ⟨id, rfl⟩
  · rcases hb with hb | ⟨id, rfl⟩
    · rcases hshort a ha with rfl | rfl <;> rcases hshort b hb with rfl | rfl
      · rfl
      · exact absurd h (by decide)
      · exact absurd h (by decide)
      · rfl
    · exact absurd h (hlong a id ha)
  · rcases hb with hb | ⟨id', rfl⟩
    · exact absurd h.symm (hlong b id hb)
    · exact congrArg some h

theorem toString_nat_inj {m n : ℕ} (h : toString m = toString n) : m = n := by
  have hlist : ∀ k : ℕ, (toString k).toList = Nat.toDigits 10 k := fun k => Nat.toList_repr ..
  have hvalue := congrArg (fun s : String => Nat.ofDigitChars 10 s.toList 0) h
  simpa only [hlist, Nat.ofDigitChars_ten_toDigits] using hvalue

/-- The word for what a chart shows. -/
def Question.kind : Question → List Char
  | .monthly _ => ['m', 'o', 'n', 't', 'h', 'l', 'y']
  | .byCategory _ => ['b', 'y', 'C', 'a', 't', 'e', 'g', 'o', 'r', 'y']

/-- The parts of a key, with colons in between. -/
theorem toList_cacheKey (u : Uuid) (a : Option String) (q : Question) :
    (q.cacheKey u a).toList = "insights:".toList ++ (q.kind ++ ':' :: ((uuidText u).toList ++
      ':' :: ((a.getD "all").toList ++ ':' :: q.detail.toList))) := by
  have hmonthly : "insights:monthly:".toList =
      "insights:".toList ++ (['m', 'o', 'n', 't', 'h', 'l', 'y'] ++ [':']) := by decide +kernel
  have hcategory : "insights:byCategory:".toList = "insights:".toList ++
      (['b', 'y', 'C', 'a', 't', 'e', 'g', 'o', 'r', 'y'] ++ [':']) := by decide +kernel
  have hfamily : q.family.toList = "insights:".toList ++ (q.kind ++ [':']) := by
    cases q with
    | monthly months => exact hmonthly
    | byCategory start => exact hcategory
  have hcolon : ":".toList = [':'] := rfl
  simp only [Question.cacheKey, String.toList_append, hfamily, hcolon, List.append_assoc,
    List.cons_append, List.nil_append]

theorem question_inj {q q' : Question} (hkind : q.kind = q'.kind) (hdetail : q.detail = q'.detail) :
    q = q' := by
  cases q with
  | monthly months =>
    cases q' with
    | monthly months' =>
      have htext : toString months = toString months' := hdetail
      rw [toString_nat_inj htext]
    | byCategory start => cases hkind
  | byCategory start =>
    cases q' with
    | monthly months => cases hkind
    | byCategory start' =>
      have htext : JsDate.toISOString start = JsDate.toISOString start' := hdetail
      rw [JsDate.toISOString_injective htext]

theorem colon_notMem_kind (q : Question) : ':' ∉ q.kind := by
  cases q <;> simp [Question.kind]

/-- **The keys tell questions apart.** -/
theorem cacheKey_inj {u u' : Uuid} {a a' : Option String} {q q' : Question} (ha : Named a)
    (ha' : Named a') (h : q.cacheKey u a = q'.cacheKey u' a') : u = u' ∧ a = a' ∧ q = q' := by
  have hlist := congrArg String.toList h
  rw [toList_cacheKey u a q, toList_cacheKey u' a' q'] at hlist
  obtain ⟨hkinds, hrest⟩ := append_cons_inj (colon_notMem_kind q) (colon_notMem_kind q')
    (List.append_cancel_left hlist)
  obtain ⟨huser, hrest⟩ := append_cons_inj (colon_notMem_uuidText u) (colon_notMem_uuidText u')
    hrest
  obtain ⟨haccount, hdetail⟩ := append_cons_inj (colon_notMem_of_named ha)
    (colon_notMem_of_named ha') hrest
  have hquestion := question_inj hkinds (String.toList_injective hdetail)
  exact ⟨uuidText_injective (String.toList_injective huser),
    named_inj ha ha' (String.toList_injective haccount), hquestion⟩

/-! ## Patterns -/

theorem glob_cons {c : Char} (hstar : c ≠ '*') (hmark : c ≠ '?') (pattern key : List Char) :
    glob (c :: pattern) (c :: key) = glob pattern key := by
  simp [glob]

theorem glob_append {l : List Char} (hl : '*' ∉ l ∧ '?' ∉ l) (pattern key : List Char) :
    glob (l ++ pattern) (l ++ key) = glob pattern key := by
  induction l with
  | nil => rfl
  | cons c l ih =>
    simp only [List.mem_cons, not_or] at hl
    obtain ⟨⟨hstar, hstars⟩, hmark, hmarks⟩ := hl
    rw [List.cons_append, List.cons_append, glob_cons (Ne.symm hstar) (Ne.symm hmark),
      ih ⟨hstars, hmarks⟩]

theorem glob_star {pattern key : List Char} (h : glob pattern key = true) (skipped : List Char) :
    glob ('*' :: pattern) (skipped ++ key) = true := by
  rw [glob, List.any_eq_true]
  exact ⟨key, (List.mem_tails _ _).2 (List.suffix_append ..), h⟩

/-- The keys of a customer have the pattern of the customer. -/
theorem glob_cacheKey (userId : Uuid) (accountId : Option String) (q : Question) :
    glob ("insights:*:" ++ uuidText userId ++ ":*").toList (q.cacheKey userId accountId).toList =
      true := by
  have hpattern : ("insights:*:" ++ uuidText userId ++ ":*").toList = "insights:".toList ++
      '*' :: (':' :: (uuidText userId).toList ++ ([':'] ++ ['*'])) := by
    simp
  have hid : '*' ∉ ':' :: (uuidText userId).toList ∧ '?' ∉ ':' :: (uuidText userId).toList := by
    simp only [List.mem_cons, not_or]
    exact ⟨⟨by decide, notMem_uuidText (by decide) (by decide) userId⟩, by decide,
      notMem_uuidText (by decide) (by decide) userId⟩
  rw [toList_cacheKey, hpattern, glob_append (by decide)]
  refine glob_star ?_ q.kind
  rw [← List.cons_append, glob_append hid]
  have hrest := @glob_star [] [] rfl ((accountId.getD "all").toList ++ ':' :: q.detail.toList)
  rw [List.append_nil] at hrest
  exact (glob_append (by decide) _ _).trans hrest

/-! ## Runs -/

/-- Where a chart that was sent is from, in a run. -/
inductive Served (env : Env) (P : Pool State Error (Option Chart) Call)
    (tr : List (Step State Call)) (i : ℕ) (c : Call) (userId : Uuid) (accountId : Option String)
    (q : Question) (chart : Chart) : Prop
  /-- The customer has no accounts. -/
  | nothing (hasked : Asked c (own i tr) userId accountId q []) (h : chart = q.none)
  /-- The call made it. -/
  | made (h : Made c (own i tr) userId accountId q chart)
  /-- The call that took the step `w` had made it. It was put into the cache then, and read from
  there at the step `g`, in time, and no invalidation ran to its end in between. -/
  | cached {later mid earlier : List (Step State Call)} {g w : Step State Call} {ids : List Uuid}
      (htr : tr = later ++ g :: (mid ++ w :: earlier)) (hg : g.tid = i)
      (hasked : Asked c (own i tr) userId accountId q ids)
      (hmade : Made w.call (own w.tid earlier) userId accountId q chart)
      (hfresh : g.pre.now < w.pre.now + env.cacheTtl * 1000)
      (hswept : ∀ k answers, P.Returned k (.invalidate userId answers) none →
        Complete env answers → own k later = [] → own k (w :: earlier) ≠ [])

section Runs

variable {s₀ : State} {tr : List (Step State Call)} {P : Pool State Error (Option Chart) Call}

theorem State.get_eq_some {s : State} {key : String} {chart : Chart} :
    s.get key = some chart ↔
      ∃ expiresAt, s.cache.lookup key = some ⟨chart, expiresAt⟩ ∧ s.now < expiresAt := by
  simp only [State.get, Option.map_eq_some_iff, Option.filter_eq_some_iff, decide_eq_true_eq]
  constructor
  · rintro ⟨⟨value, expiresAt⟩, ⟨hentry, htime⟩, rfl⟩
    exact ⟨expiresAt, hentry, htime⟩
  · rintro ⟨expiresAt, hentry, htime⟩
    exact ⟨⟨chart, expiresAt⟩, ⟨hentry, htime⟩, rfl⟩

/-- An entry that a step puts into the cache is a chart that its call has made. -/
theorem made_of_step {c : Call} {own : List (State × State)} {s s' : State}
    (hstep : CacheStep env c own s s') {userId : Uuid} {accountId : Option String} {q : Question}
    {chart : Chart} {expiresAt : Instant} (hnamed : Named accountId)
    (hnew : s.cache.lookup (q.cacheKey userId accountId) ≠ some ⟨chart, expiresAt⟩)
    (hentry : s'.cache.lookup (q.cacheKey userId accountId) = some ⟨chart, expiresAt⟩) :
    Made c own userId accountId q chart ∧ expiresAt = s.now + env.cacheTtl * 1000 := by
  cases hstep with
  | same h =>
    rw [h] at hentry
    exact absurd hentry hnew
  | @set userId' accountId' q' chart' hmade h =>
    rw [h] at hentry
    simp only [State.set, Table.lookup_insert_ite] at hentry
    split at hentry
    · next hkey =>
      have hnamed' : Named accountId' := by
        obtain ⟨ids, hasked, -⟩ := hmade
        exact hasked.named
      obtain ⟨rfl, rfl, rfl⟩ := cacheKey_inj hnamed hnamed' hkey
      cases hentry
      exact ⟨hmade, rfl⟩
    · exact absurd hentry hnew
  | del h =>
    rw [h] at hentry
    exact absurd (Table.lookup_deleteMany.1 hentry).1 hnew

/-- A search through the whole cache finds and deletes the keys of the customer. -/
theorem not_swept {own : List (State × State)} {userId : Uuid} {accountId : Option String}
    {q : Question} {entry : CacheEntry}
    (hthere : ∀ y ∈ own, y.1.cache.lookup (q.cacheKey userId accountId) = some entry ∧
      y.2.cache.lookup (q.cacheKey userId accountId) = some entry) :
    ¬ Swept env ("insights:*:" ++ uuidText userId ++ ":*") (List.range (env.buckets + 1)) own := by
  intro hswept
  have hcursor : env.bucket (q.cacheKey userId accountId) % (env.buckets + 1) ∈
      List.range (env.buckets + 1) := List.mem_range.2 (Nat.mod_lt _ (Nat.succ_pos _))
  obtain ⟨s, hs, hfound⟩ := hswept _ hcursor
  have hkey : q.cacheKey userId accountId ∈ scan env ("insights:*:" ++ uuidText userId ++ ":*")
      (env.bucket (q.cacheKey userId accountId) % (env.buckets + 1)) s := by
    refine List.mem_filter.2 ⟨?_, ?_⟩
    · rw [← AList.mem_keys, ← AList.lookup_isSome, (hthere _ hs).1]
      rfl
    · rw [glob_cacheKey]
      simp
  rcases hfound with hnothing | ⟨t, ht⟩
  · rw [hnothing] at hkey
    cases hkey
  · have hkept := (Table.lookup_deleteMany.1 (hthere _ ht).2).2
    rw [List.contains_iff_mem.2 hkey] at hkept
    cases hkept

/-- **The charts that are sent.** In every interleaving of the calls from an empty cache, a chart
that a customer is sent was made of the customer's own accounts: by the call itself, or by an
earlier call with the same question, and then it was put into the cache less than the time to live
before it was read, and no invalidation that began after the one and returned before the other was
answered by the cache throughout. -/
theorem charts_served (env : Env) (s₀ : State) (hempty : s₀.cache = ∅)
    (tr : List (Step State Call)) (P : Pool State Error (Option Chart) Call)
    (hrun : Run (fun _ => handle env) (fun _ => True) s₀ tr P) (i : ℕ) (c : Call) (chart : Chart)
    (hreturned : P.Returned i c (some chart)) :
    ∃ userId accountId q, Served env P tr i c userId accountId q chart := by
  have hended : Ended env c (own i tr) (.ok (some chart)) :=
    (hrun.does fun _ c _ => handle_does c).2 i _ hreturned.thread
  obtain ⟨userId, accountId, q, hsource⟩ := hended
  refine ⟨userId, accountId, q, ?_⟩
  cases hsource with
  | nothing hasked h => exact .nothing hasked h
  | made h => exact .made h
  | @cached s ids hasked hmem hget =>
    obtain ⟨expiresAt, hentry, htime⟩ := State.get_eq_some.1 hget
    obtain ⟨g, hg, hgid, rfl, hgpost⟩ := mem_own.1 hmem
    obtain ⟨later, rest, hsplit⟩ := List.mem_iff_append.1 hg
    obtain ⟨P', hrun', hstate⟩ := hrun.before hsplit
    obtain ⟨mid, w, earlier, rfl, hnew, hput, hmid⟩ := hrun'.became
      (I := fun s => s.cache.lookup (q.cacheKey userId accountId) = some ⟨chart, expiresAt⟩)
      (by simp [hempty]) (by rw [hstate]; exact hentry)
    have hstep : CacheStep env w.call (own w.tid earlier) w.pre w.post :=
      (hrun'.does fun _ c _ => handle_does c).1 mid w earlier rfl
    obtain ⟨hmade, rfl⟩ := made_of_step hstep hasked.named hnew hput
    refine .cached hsplit hgid hasked hmade htime fun k answers hk hcomplete hlater hearlier => ?_
    have hinvalidated : Ended env (.invalidate userId answers) (own k tr) (.ok none) :=
      (hrun.does fun _ c _ => handle_does c).2 k _ hk.thread
    -- its own steps are all among those while the entry was there
    have hown : own k tr = own k (g :: mid) := by
      rw [hsplit, ← List.cons_append, own_append, own_append, hlater, hearlier, List.nil_append,
        List.append_nil]
    rw [hown] at hinvalidated
    have hthere : ∀ y ∈ own k (g :: mid),
        y.1.cache.lookup (q.cacheKey userId accountId) =
          some ⟨chart, w.pre.now + env.cacheTtl * 1000⟩ ∧
        y.2.cache.lookup (q.cacheKey userId accountId) =
          some ⟨chart, w.pre.now + env.cacheTtl * 1000⟩ := by
      intro y hy
      obtain ⟨z, hz, -, hpre, hpost⟩ := mem_own.1 hy
      rw [← hpre, ← hpost]
      rcases List.mem_cons.1 hz with rfl | hz
      · rw [hgpost]
        exact ⟨hentry, hentry⟩
      · exact hmid z hz
    exact not_swept hthere (hinvalidated userId answers rfl hcomplete)

/-! ### A chart that is sent twice -/

def sampleCacheEnv : Env := ⟨60, String.length, 3⟩

/-- Ann has spent 5.00, and the cache is empty. -/
def sampleState : State where
  db := { sampleDb with
    transactions := (∅ : Table Uuid Transaction).insert 101 ⟨10, .cardPurchase, .posted, -500,
      "Coffee", .dining, none, 1775037600000, none, none⟩ }
  cache := ∅
  now := 1775037700000

/-- Ann asks for a chart, Bob's charts are dropped, and half a minute later, when the transaction is
gone, Ann asks again. -/
def sampleSchedule : List (Choice Call) :=
  [.call (.monthly 1 none 6 ⟨true, true⟩), .step 0, .step 0, .step 0, .step 0,
    .call (.invalidate 2 fun _ => ⟨true, true⟩), .step 1, .step 1, .step 1, .step 1,
    .call (.bank fun db => { db with transactions := ∅ }), .step 2,
    .call (.clock 30000), .step 3,
    .call (.monthly 1 none 6 ⟨true, true⟩), .step 4, .step 4]

def sampleCharts : List (Step State Call) × Pool State Error (Option Chart) Call :=
  exec (fun _ => handle sampleCacheEnv) sampleState sampleSchedule

theorem charts_served_sample : ∃ userId accountId q,
    Served sampleCacheEnv sampleCharts.2 sampleCharts.1 4 (.monthly 1 none 6 ⟨true, true⟩) userId
      accountId q (.months [⟨"2026-04", "2026-04-01T00:00:00.000Z", "0", "500", 1⟩]) := by
  refine charts_served sampleCacheEnv sampleState rfl _ _ (exec_run _ fun _ _ => trivial) 4 _ _ ?_
  refine Pool.returned_iff.2 ⟨?_, by decide +kernel⟩
  rw [calls_exec]
  rfl

end Runs

end BankDemo.Insights
