import BankDemo.Autosave.Settings
import BankDemo.Properties.GoalMoney

/-!
# Savings go to the user's own goals

`AutosaveService.upsert` looks at the goals, then at the account, and then writes, and the weekly
worker applies a configuration some time after it has read it. In every interleaving, all the same,
the splits of a configuration are over goals of its user and add up to a hundred, when it is stored
and when it is applied, as long as the user is there (`settings_sound`). This is what contributions
rely on (`SplitsOwned`).
-/

namespace BankDemo.Settings

open Prog Autosave RoundUps

/-! ## What the calls do -/

/-- The splits are over goals of the user. -/
def OwnSplits (s : State) (userId : Uuid) (splits : List GoalSplit) : Prop :=
  ∀ split ∈ splits, ∃ goal, s.goals.lookup split.goalId = some goal ∧ goal.userId = userId

/-- The splits that a call is to store are those asked for, over goals that it has found to be the
user's. -/
def Checked (own : List (State × State)) (userId : Uuid) (asked normalized : Option (List GoalSplit)) :
    Prop :=
  ∀ splits, normalized = some splits → ∃ g raw, (g, g) ∈ own ∧ asked = some raw ∧
    splits = normalizeSplitsDouble raw ∧ OwnSplits g userId raw

/-- The call has found the account to be the user's. -/
def Sourced (own : List (State × State)) (userId : Uuid) (source : Option Uuid) : Prop :=
  ∀ a, source = some a → ∃ g acct, (g, g) ∈ own ∧ g.accounts.lookup a = some acct ∧ acct.userId = userId

/-- What a step of a call makes of the tables. -/
inductive Changed (c : Call) (own : List (State × State)) (s s' : State) : Prop
  | goals (husers : s'.users = s.users) (hconfigs : s'.autosaveConfigs = s.autosaveConfigs)
      (hkept : ∀ id row, s.goals.lookup id = some row →
        ∃ row', s'.goals.lookup id = some row' ∧ row'.userId = row.userId)
  | stored {userId : Uuid} {dto : UpdateAutosaveDto} {normalized : Option (List GoalSplit)}
      (hcall : c = .upsert userId dto) (huser : userId ∈ s.users)
      (hsplits : Checked own userId dto.splits normalized)
      (hsource : Sourced own userId dto.roundUpSourceAccountId)
      (h : s' = { s with
        autosaveConfigs := s.autosaveConfigs.insert userId
          (((s.autosaveConfigs.lookup userId).map (dto.apply normalized)).getD
            (dto.new normalized)) })
  | deleted {userId : Uuid} (h : s' = s.deleteUser userId)

/-- The newest of the steps that a call took. -/
def Did (c : Call) : List (State × State) → Prop
  | [] => True
  | (s, s') :: own => Changed c own s s'

/-- The promise of a call: what the worker reads was there. -/
def Promise (c : Call) (own : List (State × State)) : Except Error Answer → Prop
  | .ok (.due rows) => ∃ g today, c = .due today ∧ (g, g) ∈ own ∧ rows = g.due today
  | _ => True

section Statements

variable {c : Call} {own : List (State × State)} {s : State}

theorem changed_same (s : State) : Changed c own s s :=
  .goals rfl rfl fun _ row h => ⟨row, h, rfl⟩

theorem changed_createGoal {id : Uuid} {row : GoalRow} {r : (Uuid × GoalRow) × State}
    (h : createGoal id row s = .ok r) : Changed c own s r.2 := by
  unfold createGoal at h
  split at h
  · cases h
  · next hnew =>
    split at h
    · cases h
      refine .goals rfl rfl fun id' row' hrow' => ⟨row', ?_, rfl⟩
      have hid : id' ≠ id := by
        rintro rfl
        simp [hrow'] at hnew
      exact (AList.lookup_insert_ne hid).trans hrow'
    · cases h

theorem changed_updateGoal {id : Uuid} {f : GoalRow → GoalRow} {r : (Uuid × GoalRow) × State}
    (h : updateGoal id f s = .ok r) (hf : ∀ row, (f row).userId = row.userId) : Changed c own s r.2 := by
  unfold updateGoal at h
  split at h
  · cases h
  · next row hrow =>
    cases h
    refine .goals rfl rfl fun id' row' hrow' => ?_
    by_cases hid : id' = id
    · subst hid
      rw [hrow] at hrow'
      obtain rfl := Option.some.inj hrow'
      exact ⟨f row, AList.lookup_insert _, hf row⟩
    · exact ⟨row', (AList.lookup_insert_ne hid).trans hrow', rfl⟩

theorem changed_clearDefaults (userId : Uuid) (keep : Option Uuid) :
    Changed c own s (s.clearDefaults userId keep) := by
  refine .goals rfl rfl fun id row hrow => ?_
  simp only [State.clearDefaults, Table.lookup_updateMany, hrow, Option.map_some]
  refine ⟨_, rfl, ?_⟩
  split <;> rfl

theorem upsertConfig_eq_ok {userId : Uuid} {f : ConfigRow → ConfigRow} {create : ConfigRow}
    {r : ConfigRow × State} (h : upsertConfig userId f create s = .ok r) : userId ∈ s.users ∧
      r.2 = { s with
        autosaveConfigs := s.autosaveConfigs.insert userId
          (((s.autosaveConfigs.lookup userId).map f).getD create) } := by
  unfold upsertConfig at h
  split at h
  · next huser =>
    cases h
    exact ⟨huser, rfl⟩
  · cases h

theorem mem_ownedGoals {userId id : Uuid} {ids : List Uuid} (h : id ∈ s.ownedGoals userId ids) :
    ∃ goal, s.goals.lookup id = some goal ∧ goal.userId = userId := by
  obtain ⟨⟨id', goal⟩, he, rfl⟩ := List.mem_map.1 h
  obtain ⟨hmem, howner⟩ := List.mem_filter.1 he
  simp only [Bool.and_eq_true, decide_eq_true_eq] at howner
  exact ⟨goal, Table.mem_entries_iff.1 hmem, howner.1⟩

end Statements

section Parts

variable {α β : Type} {c : Call} {own : List (State × State)}
  {Q : List (State × State) → Except Error β → Prop}

/-- A query, then more. -/
theorem does_query {f : State → α} {k : α → Handler β}
    (hk : ∀ g, (k (f g)).Does (Did c) Q ((g, g) :: own)) : (query f >>= k).Does (Did c) Q own :=
  does_bind (does_read fun g => ⟨changed_same g, hk g⟩)

/-- A statement about the goals, then more. -/
theorem does_goals {body : State → Except Error (α × State)} {k : α → Handler β}
    (hbody : ∀ {c own s r}, body s = .ok r → Changed c own s r.2)
    (hk : ∀ a own', (k a).Does (Did c) Q own') (herr : ∀ own e, Q own (.error e)) :
    (statement body >>= k).Does (Did c) Q own := by
  apply does_bind
  apply does_attempt
  · intro s a s' _ h
    exact ⟨hbody (r := (a, s')) h, hk a _⟩
  · intro s e _ _
    exact ⟨changed_same s, herr _ e⟩

theorem does_clearIf {isDefault : Option Bool} {userId : Uuid} {keep : Option Uuid}
    {k : Unit → Handler β} (hk : ∀ own', (k ()).Does (Did c) Q own') :
    (clearIf isDefault userId keep >>= k).Does (Did c) Q own := by
  unfold clearIf
  split
  · exact does_bind (does_modify fun s _ => ⟨changed_clearDefaults userId keep, hk _⟩)
  · exact hk own

theorem does_ownGoal {userId id : Uuid} {k : Unit → Handler β}
    (hk : ∀ own', (k ()).Does (Did c) Q own') (herr : ∀ own e, Q own (.error e)) :
    (ownGoal userId id >>= k).Does (Did c) Q own := by
  simp only [ownGoal, bind_assoc]
  apply does_query
  intro g
  cases g.goals.lookup id with
  | none => exact herr _ _
  | some goal =>
    dsimp only
    split
    · exact herr _ _
    · exact hk _

theorem does_checkSplits {userId : Uuid} {splits : Option (List GoalSplit)}
    {k : Option (List GoalSplit) → Handler β}
    (hk : ∀ normalized own', Checked own' userId splits normalized →
      (k normalized).Does (Did c) Q own')
    (herr : ∀ own e, Q own (.error e)) : (checkSplits userId splits >>= k).Does (Did c) Q own := by
  unfold checkSplits
  cases splits with
  | none => exact hk none own fun splits h => (by cases h)
  | some splits =>
    simp only [bind_assoc]
    apply does_query
    intro g
    cases hfind : splits.find? fun split =>
        !(g.ownedGoals userId (splits.map GoalSplit.goalId)).contains split.goalId with
    | some split => exact herr _ _
    | none =>
      refine hk _ _ fun stored h => ⟨g, splits, List.mem_cons_self, rfl, (Option.some.inj h).symm, ?_⟩
      intro split hsplit
      have howned := List.find?_eq_none.1 hfind split hsplit
      have hmem : split.goalId ∈ g.ownedGoals userId (splits.map GoalSplit.goalId) := by
        simpa using howned
      exact mem_ownedGoals hmem

theorem does_checkSource {userId : Uuid} {source : Option Uuid} {k : Unit → Handler β}
    (hk : ∀ own', own ⊆ own' → Sourced own' userId source → (k ()).Does (Did c) Q own')
    (herr : ∀ own e, Q own (.error e)) : (checkSource userId source >>= k).Does (Did c) Q own := by
  unfold checkSource
  cases source with
  | none => exact hk own (List.Subset.refl own) fun a h => (by cases h)
  | some id =>
    simp only [bind_assoc]
    apply does_query
    intro g
    split
    · next howner =>
      obtain ⟨acct, hacct, huser⟩ := Option.map_eq_some_iff.1 howner
      refine hk _ (List.subset_cons_self _ own) fun a h => ?_
      obtain rfl := Option.some.inj h
      exact ⟨g, acct, List.mem_cons_self, hacct, huser⟩
    · exact herr _ _

end Parts

theorem Checked.mono {own own' : List (State × State)} {userId : Uuid}
    {asked normalized : Option (List GoalSplit)} (h : Checked own userId asked normalized)
    (hown : own ⊆ own') : Checked own' userId asked normalized := by
  intro splits hsplits
  obtain ⟨g, raw, hg, hraw⟩ := h splits hsplits
  exact ⟨g, raw, hown hg, hraw⟩

theorem handle_does (c : Call) : (handle c).Does (Did c) (Promise c) [] := by
  cases c with
  | create now id userId dto =>
    simp only [handle, create, bind_assoc]
    exact does_clearIf fun _ => does_goals changed_createGoal (fun _ _ => trivial) fun _ _ => trivial
  | update userId id dto =>
    simp only [handle, update, bind_assoc]
    refine does_ownGoal (fun _ => does_clearIf fun _ => ?_) fun _ _ => trivial
    exact does_goals (fun h => changed_updateGoal h fun _ => rfl) (fun _ _ => trivial)
      fun _ _ => trivial
  | archive now userId id =>
    simp only [handle, archive, bind_assoc]
    refine does_ownGoal (fun _ => ?_) fun _ _ => trivial
    exact does_goals (fun h => changed_updateGoal h fun _ => rfl) (fun _ _ => trivial)
      fun _ _ => trivial
  | upsert userId dto =>
    simp only [handle, upsert, bind_assoc]
    refine does_checkSplits (fun normalized own hsplits => ?_) fun _ _ => trivial
    refine does_checkSource (fun own' hown hsource => ?_) fun _ _ => trivial
    refine does_bind (does_attempt (fun s a s' _ h => ?_) fun s _ _ _ => ⟨changed_same s, trivial⟩)
    obtain ⟨huser, hrow⟩ := upsertConfig_eq_ok h
    exact ⟨.stored rfl huser (hsplits.mono hown) hsource hrow, trivial⟩
  | due today => exact does_query fun g => ⟨g, today, rfl, List.mem_cons_self, rfl⟩
  | increment id cents =>
    exact does_goals (fun h => changed_updateGoal h fun _ => rfl) (fun _ _ => trivial)
      fun _ _ => trivial
  | account id row =>
    refine does_bind (does_modify fun s _ => ⟨?_, trivial⟩)
    cases row <;> exact .goals rfl rfl fun _ row h => ⟨row, h, rfl⟩
  | deleteUser userId => exact does_bind (does_modify fun s _ => ⟨.deleted rfl, trivial⟩)

/-! ## Goals after a step -/

section Steps

variable {c : Call} {own : List (State × State)} {s s' : State}

theorem Changed.users (h : Changed c own s s') {u : Uuid} (hu : u ∈ s'.users) : u ∈ s.users := by
  cases h with
  | goals husers => rwa [husers] at hu
  | stored _ _ _ _ h =>
    rw [h] at hu
    exact hu
  | deleted h =>
    rw [h] at hu
    exact (List.mem_filter.1 hu).1

/-- Goals of a user who is there stay the user's. -/
theorem Changed.ownSplits (h : Changed c own s s') {u : Uuid} {splits : List GoalSplit}
    (hsplits : OwnSplits s u splits) (hu : u ∈ s'.users) : OwnSplits s' u splits := by
  intro split hsplit
  obtain ⟨goal, hgoal, howner⟩ := hsplits split hsplit
  cases h with
  | goals _ _ hkept =>
    obtain ⟨goal', hgoal', hsame⟩ := hkept _ goal hgoal
    exact ⟨goal', hgoal', hsame.trans howner⟩
  | stored _ _ _ _ h =>
    rw [h]
    exact ⟨goal, hgoal, howner⟩
  | @deleted userId h =>
    rw [h] at hu ⊢
    have hne : u ≠ userId := by simpa using (List.mem_filter.1 hu).2
    refine ⟨goal, Table.lookup_deleteMany.2 ⟨hgoal, ?_⟩, howner⟩
    simpa [howner] using hne

end Steps

/-! ## Normalized splits -/

/-- The splits of a configuration are over goals of the user, and add up to a hundred, if there are
any. -/
structure SoundSplits (s : State) (userId : Uuid) (splits : List GoalSplit) : Prop where
  owned : OwnSplits s userId splits
  nonneg : ∀ split ∈ splits, 0 ≤ split.percent
  sum : splits = [] ∨ (splits.map GoalSplit.percent).sum = 100

theorem SoundSplits.of_goals {s s' : State} {userId : Uuid} {splits : List GoalSplit}
    (h : SoundSplits s userId splits) (hgoals : s'.goals = s.goals) : SoundSplits s' userId splits where
  owned := by
    unfold OwnSplits
    rw [hgoals]
    exact h.owned
  nonneg := h.nonneg
  sum := h.sum

theorem soundSplits_nil (s : State) (userId : Uuid) : SoundSplits s userId [] :=
  ⟨by simp [OwnSplits], by simp, .inl rfl⟩

/-- What is scaled to a hundred is a small whole number. -/
theorem sum_positive_le {raw : List GoalSplit} (hlength : raw.length ≤ 10)
    (hpercent : ∀ split ∈ raw, split.percent ≤ 100) :
    ((positive raw).map GoalSplit.percent).sum ≤ 2 ^ 40 := by
  have hsum := List.sum_le_card_nsmul ((positive raw).map GoalSplit.percent) 100 fun x hx => by
    obtain ⟨split, hsplit, rfl⟩ := List.mem_map.1 hx
    exact hpercent split (List.mem_filter.1 hsplit).1
  have hcount : (positive raw).length ≤ raw.length := List.length_filter_le _ raw
  rw [List.length_map, nsmul_eq_mul] at hsum
  omega

theorem soundSplits_normalized {s : State} {userId : Uuid} {raw : List GoalSplit}
    (h : OwnSplits s userId raw) (hlength : raw.length ≤ 10)
    (hpercent : ∀ split ∈ raw, split.percent ≤ 100) :
    SoundSplits s userId (normalizeSplitsDouble raw) := by
  by_cases hpositive : positive raw = []
  · rw [normalizeSplitsDouble, normalizeSplitsBy_nil hpositive]
    exact soundSplits_nil s userId
  · have hnormalized := normalizeSplitsDouble_normalized hpositive (sum_positive_le hlength hpercent)
    refine ⟨fun split hsplit => ?_, hnormalized.nonneg, .inr hnormalized.sum⟩
    have hid := hnormalized.goals.mem_iff.1 (List.mem_map_of_mem hsplit)
    obtain ⟨split', hsplit', heq⟩ := List.mem_map.1 hid
    rw [← heq]
    exact h split' (List.mem_filter.1 hsplit').1

/-! ## What is upserted -/

section Upserted

variable {dto : UpdateAutosaveDto} {normalized : Option (List GoalSplit)} {old : Option ConfigRow}
  {row : ConfigRow}

theorem upserted_splits (h : row = (old.map (dto.apply normalized)).getD (dto.new normalized)) :
    normalized = some row.splits ∨ row.splits = [] ∨
      ∃ before, old = some before ∧ row.splits = before.splits := by
  subst h
  cases normalized with
  | some splits => cases old <;> exact .inl rfl
  | none =>
    cases old with
    | none => exact .inr (.inl rfl)
    | some before => exact .inr (.inr ⟨before, rfl, rfl⟩)

theorem upserted_source (h : row = (old.map (dto.apply normalized)).getD (dto.new normalized)) {a : Uuid}
    (ha : row.roundUpSourceAccountId = some a) : dto.roundUpSourceAccountId = some a ∨
      ∃ before, old = some before ∧ before.roundUpSourceAccountId = some a := by
  subst h
  cases old with
  | none => exact .inl ha
  | some before =>
    simp only [Option.map_some, Option.getD_some, UpdateAutosaveDto.apply] at ha
    cases hdto : dto.roundUpSourceAccountId with
    | none =>
      rw [hdto] at ha
      exact .inr ⟨before, rfl, ha⟩
    | some b =>
      rw [hdto] at ha
      exact .inl ha

end Upserted

/-! ## Runs -/

section Runs

variable {s₀ : State} {tr : List (Step State Call)} {P : Pool State Error Answer Call}
  (hrun : Run (fun _ => handle) Call.Valid s₀ tr P)

include hrun

theorem changed_of_run {later earlier : List (Step State Call)} {x : Step State Call}
    (hsplit : tr = later ++ x :: earlier) : Changed x.call (own x.tid earlier) x.pre x.post :=
  (hrun.does fun _ c _ => handle_does c).1 later x earlier hsplit

/-- Goals that a step found to be a user's are the user's, while the user is there. -/
theorem ownSplits_later {y : Step State Call} (hy : y ∈ tr) {u : Uuid} {splits : List GoalSplit}
    (h : OwnSplits y.pre u splits) (hu : u ∈ P.state.users) : OwnSplits P.state u splits := by
  obtain ⟨later, past, hsplit⟩ := List.mem_iff_append.1 hy
  have hkeep := hrun.keeps (I := fun s => u ∈ s.users → OwnSplits s u splits)
    (show tr = (later ++ [y]) ++ past by rw [hsplit]; simp)
    (fun _ => by rw [← hrun.pre_eq hsplit]; exact h) fun late x mid hlater hpre hpost => ?_
  · rw [hrun.state_eq] at hu ⊢
    exact hkeep.2 hu
  · have hstep := changed_of_run hrun (show tr = late ++ x :: (mid ++ past) by
      rw [hsplit, show later ++ y :: past = (later ++ [y]) ++ past by simp, hlater]
      simp)
    exact hstep.ownSplits (hpre (hstep.users hpost)) hpost

/-- A configuration is of a user who is there, with sound splits and a source that a step found to
be the user's. -/
def SoundRow (tr : List (Step State Call)) (s : State) (userId : Uuid) (row : ConfigRow) : Prop :=
  userId ∈ s.users ∧ SoundSplits s userId row.splits ∧
    ∀ a, row.roundUpSourceAccountId = some a → ∃ x ∈ tr, ∃ acct, x.pre.accounts.lookup a = some acct ∧
      acct.userId = userId

omit hrun in
theorem SoundRow.kept {c : Call} {own : List (State × State)} {x : Step State Call} {userId : Uuid}
    {row : ConfigRow} (h : SoundRow tr x.pre userId row) (hchanged : Changed c own x.pre x.post)
    (huser : userId ∈ x.post.users) : SoundRow (x :: tr) x.post userId row := by
  obtain ⟨-, hsplits, hsource⟩ := h
  refine ⟨huser, ⟨hchanged.ownSplits hsplits.owned huser, hsplits.nonneg, hsplits.sum⟩, ?_⟩
  intro a ha
  obtain ⟨y, hy, hacct⟩ := hsource a ha
  exact ⟨y, List.mem_cons_of_mem _ hy, hacct⟩

/-- What a call has found by its step, it stores. -/
theorem soundRow_upserted {i : ℕ} {x : Step State Call} {userId : Uuid} {dto : UpdateAutosaveDto}
    {normalized : Option (List GoalSplit)} {row : ConfigRow} (hvalid : dto.Valid)
    (huser : userId ∈ P.state.users)
    (hgoals : x.post.goals = P.state.goals) (husers : x.post.users = P.state.users)
    (hsplits : Checked (own i tr) userId dto.splits normalized)
    (hsource : Sourced (own i tr) userId dto.roundUpSourceAccountId)
    (hold : ∀ row, P.state.autosaveConfigs.lookup userId = some row →
      SoundRow tr P.state userId row)
    (hrow : row = ((P.state.autosaveConfigs.lookup userId).map (dto.apply normalized)).getD
      (dto.new normalized)) : SoundRow (x :: tr) x.post userId row := by
  refine ⟨by rw [husers]; exact huser, SoundSplits.of_goals ?_ hgoals, fun a ha => ?_⟩
  · rcases upserted_splits hrow with hnew | hnil | ⟨before, hbefore, heq⟩
    · obtain ⟨g, raw, hg, hasked, heq, hraw⟩ := hsplits _ hnew
      obtain ⟨y, hy, -, rfl, -⟩ := mem_own.1 hg
      obtain ⟨hlength, hpercent⟩ := hvalid raw hasked
      rw [heq]
      exact soundSplits_normalized (ownSplits_later hrun hy hraw huser) hlength
        fun split hsplit => (hpercent split hsplit).2
    · rw [hnil]
      exact soundSplits_nil _ _
    · rw [heq]
      exact (hold before hbefore).2.1
  · rcases upserted_source hrow ha with hdto | ⟨before, hbefore, ha⟩
    · obtain ⟨g, acct, hg, hacct⟩ := hsource a hdto
      obtain ⟨y, hy, -, rfl, -⟩ := mem_own.1 hg
      exact ⟨y, List.mem_cons_of_mem _ hy, acct, hacct⟩
    · obtain ⟨y, hy, hacct⟩ := (hold before hbefore).2.2 a ha
      exact ⟨y, List.mem_cons_of_mem _ hy, hacct⟩

theorem stored_sound (hempty : s₀.autosaveConfigs = ∅) {userId : Uuid} {row : ConfigRow}
    (hrow : P.state.autosaveConfigs.lookup userId = some row) : SoundRow tr P.state userId row := by
  refine hrun.induct (I := fun tr s => ∀ row, s.autosaveConfigs.lookup userId = some row →
    SoundRow tr s userId row) ?_ ?_ row hrow
  · intro row hrow
    rw [hempty, AList.lookup_empty] at hrow
    cases hrow
  · intro later x earlier hsplit ih row hrow
    have hchanged := changed_of_run hrun hsplit
    have hkept := hchanged
    cases hchanged with
    | goals husers hconfigs =>
      rw [hconfigs] at hrow
      exact (ih row hrow).kept hkept (by rw [husers]; exact (ih row hrow).1)
    | @stored u dto normalized hcall huser hsplits hsource h =>
      have hgoals : x.post.goals = x.pre.goals := by rw [h]
      have husers : x.post.users = x.pre.users := by rw [h]
      simp only [h] at hrow
      by_cases hu : userId = u
      · subst hu
        rw [AList.lookup_insert] at hrow
        obtain ⟨P', hrun', hstate⟩ := hrun.before hsplit
        have hvalid : dto.Valid := by
          have hok := hrun.step_ok (x := x) (by simp [hsplit])
          rwa [hcall] at hok
        rw [← hstate] at hgoals husers huser ih hrow
        exact soundRow_upserted hrun' hvalid huser hgoals husers hsplits hsource ih
          (Option.some.inj hrow).symm
      · rw [AList.lookup_insert_ne hu] at hrow
        exact (ih row hrow).kept hkept (by rw [husers]; exact (ih row hrow).1)
    | @deleted u h =>
      have hconfigs : x.post.autosaveConfigs = x.pre.autosaveConfigs.erase u := by
        rw [h]
        rfl
      rw [hconfigs] at hrow
      by_cases hu : userId = u
      · subst hu
        rw [AList.lookup_erase] at hrow
        cases hrow
      · rw [AList.lookup_erase_ne hu] at hrow
        refine (ih row hrow).kept hkept ?_
        rw [h]
        exact List.mem_filter.2 ⟨(ih row hrow).1, by simpa using hu⟩

end Runs

/-- The bank has the goals of the settings. -/
def Mirrors (s : State) (db : Db) : Prop :=
  ∀ id, db.goals.lookup id = (s.goals.lookup id).map GoalRow.toGoal

theorem OwnSplits.splitsOwned {s : State} {db : Db} (hmirrors : Mirrors s db) {userId : Uuid}
    {splits : List GoalSplit} (h : OwnSplits s userId splits) : SplitsOwned db userId splits := by
  intro split hsplit
  obtain ⟨goal, hgoal, howner⟩ := h split hsplit
  rw [hmirrors, hgoal, Option.map_some, Option.map_some, howner]

/-- **Savings go to the user's own goals.** In every interleaving of valid calls from the time when
there were no configurations, a configuration is of a user who is there, its splits are over goals
of the user and add up to a hundred, if there are any, and its source is an account that a step
found to be the user's. What the weekly worker has read is due, and as long as the user is there, a
weekly amount is split over goals of the user to the cent, in a bank that has the goals of the
settings. -/
theorem settings_sound (s₀ : State) (hempty : s₀.autosaveConfigs = ∅) (tr : List (Step State Call))
    (P : Pool State Error Answer Call) (hrun : Run (fun _ => handle) Call.Valid s₀ tr P) :
    (∀ userId row, P.state.autosaveConfigs.lookup userId = some row → SoundRow tr P.state userId row) ∧
    ∀ i c rows, P.Returned i c (.due rows) → ∀ e ∈ rows, e.2.enabled = true ∧
      (∃ today, c = .due today ∧ e.2.weeklyDay = some today) ∧
      (e.1 ∈ P.state.users → ∀ db, Mirrors P.state db → SplitsOwned db e.1 e.2.splits ∧
        ∀ total : ℤ, 0 ≤ total → e.2.splits ≠ [] →
          Allocated total e.2.splits (allocateCents total e.2.splits)) := by
  refine ⟨fun userId row => stored_sound hrun hempty, fun i c rows hreturned e he => ?_⟩
  obtain ⟨g, today, rfl, hg, rfl⟩ := (hrun.does fun _ c _ => handle_does c).2 i _ hreturned.thread
  obtain ⟨y, hy, -, rfl, -⟩ := mem_own.1 hg
  obtain ⟨hmem, hdue⟩ := List.mem_filter.1 he
  simp only [Bool.and_eq_true, decide_eq_true_eq] at hdue
  obtain ⟨⟨userId, row⟩, hentry, rfl⟩ := List.mem_map.1 hmem
  obtain ⟨later, past, hsplit⟩ := List.mem_iff_append.1 hy
  obtain ⟨P', hrun', hstate⟩ := hrun.before hsplit
  obtain ⟨-, hsound, -⟩ := stored_sound hrun' hempty
    (show P'.state.autosaveConfigs.lookup userId = some row by
      rw [hstate]
      exact Table.mem_entries_iff.1 hentry)
  rw [hstate] at hsound
  refine ⟨hdue.1, ⟨today, rfl, hdue.2⟩, fun huser db hmirrors => ⟨?_, fun total htotal hne => ?_⟩⟩
  · exact (ownSplits_later hrun hy hsound.owned huser).splitsOwned hmirrors
  · exact allocateCents_allocated htotal hsound.nonneg (hsound.sum.resolve_left hne)

/-! ### A weekly saving -/

/-- Customer 1 has an account. -/
def sampleCustomer : State where
  users := [1]
  accounts := AList.insert 11 ⟨1, .checking, "Checking", 5000, .active⟩ ∅
  goals := ∅
  autosaveConfigs := ∅

/-- Customer 1 makes two goals and splits a weekly amount over them. -/
def sampleSettings : List (Choice Call) :=
  [.call (.create 0 80 1 ⟨"T", "Trip", none, none, none, some true⟩), .step 0, .step 0,
    .call (.create 1 81 1 ⟨"C", "Car", none, none, none, none⟩), .step 1,
    .call (.upsert 1 ⟨some true, none, some 11, some [⟨80, 60⟩, ⟨81, 30⟩], some 1001, some 2⟩),
    .step 2, .step 2, .step 2, .call (.due 2), .step 3]

theorem valid_sample (c : Call) (h : Choice.call c ∈ sampleSettings) : c.Valid := by
  have hvalid : ∀ x ∈ sampleSettings, ∀ c, x = .call c → c.Valid := by
    simp [sampleSettings, Call.Valid, UpdateAutosaveDto.Valid]
  exact hvalid _ h c rfl

def sampleSaved : List (Step State Call) × Pool State Error Answer Call :=
  exec (fun _ => handle) sampleCustomer sampleSettings

/-- The configuration of customer 1. -/
def sampleConfig : ConfigRow where
  enabled := true
  roundUpEnabled := false
  roundUpSourceAccountId := some 11
  splits := [⟨80, 67⟩, ⟨81, 33⟩]
  weeklyContributionCents := some 1001
  weeklyDay := some 2

/-- The bank of the round-ups has these goals. -/
theorem mirrors_sample : Mirrors sampleSaved.2.state sampleSaver.db := by
  have hgoals : sampleSaved.2.state.goals =
      AList.insert 81 ⟨⟨1, "Car", 0, none⟩, "C", none, none, none, false, 1⟩
        (AList.insert 80 ⟨⟨1, "Trip", 0, none⟩, "T", none, none, none, true, 0⟩ ∅) :=
    AList.ext (by decide +kernel)
  intro id
  rw [hgoals]
  by_cases hcar : id = 81
  · subst hcar
    rfl
  · by_cases htrip : id = 80
    · subst htrip
      rfl
    · rw [AList.lookup_insert_ne hcar, AList.lookup_insert_ne htrip]
      exact (AList.lookup_insert_ne hcar).trans ((AList.lookup_insert_ne htrip).trans rfl)

theorem settings_sound_sample : SoundRow sampleSaved.1 sampleSaved.2.state 1 sampleConfig ∧
    SplitsOwned sampleSaver.db 1 sampleConfig.splits ∧
    Allocated 1001 sampleConfig.splits (allocateCents 1001 sampleConfig.splits) :=
  have hsound := settings_sound sampleCustomer rfl _ _ (exec_run sampleSettings valid_sample)
  have hread := (hsound.2 3 (.due 2) [(1, sampleConfig)] (by decide +kernel) _
    List.mem_cons_self).2.2 (by decide +kernel) _ mirrors_sample
  ⟨hsound.1 1 sampleConfig (by decide +kernel), hread.1, hread.2 1001 (by decide) (by decide)⟩

end BankDemo.Settings
