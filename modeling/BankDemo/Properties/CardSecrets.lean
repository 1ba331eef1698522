import BankDemo.Cards.Vault

/-!
# Cards are revealed as they were issued

The columns of a card that `reveal` answers with are written once, when the card is issued. Whatever
calls interleave, what is revealed is the number and the code that the card was issued with, in plain
text, while the card is active and to the owner of its account (`revealed_as_issued`).
-/

namespace BankDemo.CardVault

open CardLifecycle Prog

variable {env : Env} {v₀ v v' : Vault} {tr : List (Step Vault Call)}
  {P : Pool Vault Error (Option Revealed) Call} {c : Call}

/-- The instant and the draws of a call that issues a card. -/
def Call.issues : Call → Option (Instant × VaultDraws)
  | .accountCreated now d _ | .replaceVirtual now _ _ d => some (now, d)
  | _ => none

/-- The columns that are written once. -/
def SameCard (card card' : CardLifecycle.Card) : Prop :=
  card'.accountId = card.accountId ∧ card'.last4 = card.last4 ∧
    card'.expMonth = card.expMonth ∧ card'.expYear = card.expYear

/-- A row with the columns of a new card. -/
def Issued (env : Env) (now : Instant) (d : VaultDraws) (pan : List ℕ) (card : CardLifecycle.Card)
    (secrets : CardSecrets) : Prop :=
  Cards.generatePan env.cfg.cardDemoBin d.panBody = .ok pan ∧ secrets = newSecrets env d pan ∧
    card.last4 = Cards.last4 pan ∧ (card.expMonth, card.expYear) = Cards.generateExpiry now

/-- Every card is one that was there, or a new one. -/
def Keeps (env : Env) (c : Call) (v v' : Vault) : Prop :=
  v'.cards.accounts = v.cards.accounts ∧ ∀ id card' secrets',
    v'.cards.cards.lookup id = some card' → v'.secrets.lookup id = some secrets' →
    (∃ card, v.cards.cards.lookup id = some card ∧ v.secrets.lookup id = some secrets' ∧
      SameCard card card') ∨
    (v.cards.cards.lookup id = none ∧ ∃ now d pan, c.issues = some (now, d) ∧ d.cardId = id ∧
      Issued env now d pan card' secrets')

theorem Keeps.refl (c : Call) (v : Vault) : Keeps env c v v :=
  ⟨rfl, fun _ card' _ hcard hsecrets => .inl ⟨card', hcard, hsecrets, rfl, rfl, rfl, rfl⟩⟩

/-! ## The steps of the calls -/

/-- A change of one card that keeps its written columns. -/
theorem keeps_update {id : Uuid} {f : CardLifecycle.Card → CardLifecycle.Card}
    (hf : ∀ card, SameCard card (f card)) {r : CardLifecycle.Card × Vault}
    (h : onCards (update id f) v = .ok r) : Keeps env c v r.2 := by
  unfold onCards at h
  cases hbody : update id f v.cards with
  | error e =>
    rw [hbody] at h
    cases h
  | ok r' =>
    rw [hbody] at h
    cases h
    obtain ⟨card, hcard, rfl⟩ : ∃ card, v.cards.cards.lookup id = some card ∧
        r' = (f card, { v.cards with cards := v.cards.cards.insert id (f card) }) := by
      unfold update at hbody
      cases hlookup : v.cards.cards.lookup id with
      | none => simp [hlookup] at hbody
      | some card =>
        simp only [hlookup, Except.ok.injEq] at hbody
        exact ⟨card, rfl, hbody.symm⟩
    refine ⟨rfl, fun a card' secrets' hcard' hsecrets => .inl ?_⟩
    dsimp only at hcard' hsecrets
    rw [Table.lookup_insert_ite] at hcard'
    split at hcard'
    · rename_i ha
      subst ha
      obtain rfl := Option.some.inj hcard'
      exact ⟨card, hcard, hsecrets, hf card⟩
    · exact ⟨card', hcard', hsecrets, rfl, rfl, rfl, rfl⟩

/-- What `issue` does: a new card. -/
theorem issue_ok {d : VaultDraws} {now : Instant} {accountId : Uuid} {type : Accounts.CardType}
    {limit : Option ℤ} {r : (Uuid × CardLifecycle.Card) × Vault}
    (h : issue env d now accountId type limit v = .ok r) : ∃ pan,
      Cards.generatePan env.cfg.cardDemoBin d.panBody = .ok pan ∧
      v.cards.cards.lookup d.cardId = none ∧ r.1.1 = d.cardId ∧
      r.2.cards.accounts = v.cards.accounts ∧
      r.2.cards.cards =
        v.cards.cards.insert d.cardId (newCard env pan now accountId type limit) ∧
      r.2.secrets = v.secrets.insert d.cardId (newSecrets env d pan) := by
  obtain ⟨pan, v₁, hpan, h⟩ := body_bind_ok.1 h
  obtain ⟨_, v₂, hcreate, h⟩ := body_bind_ok.1 h
  obtain rfl := body_pure_ok.1 h
  have hpan' : Cards.generatePan env.cfg.cardDemoBin d.panBody = .ok pan ∧ v₁ = v := by
    cases hp : Cards.generatePan env.cfg.cardDemoBin d.panBody with
    | error e =>
      rw [hp] at hpan
      cases hpan
    | ok pan' =>
      rw [hp] at hpan
      cases hpan
      exact ⟨rfl, rfl⟩
  obtain ⟨hgen, rfl⟩ := hpan'
  unfold create CardLifecycle.create at hcreate
  split at hcreate
  · cases hcreate
  · rename_i hnew
    split at hcreate
    · cases hcreate
    · cases hcreate
      exact ⟨pan, hgen, by simpa using hnew, rfl, rfl, rfl, rfl⟩

/-- A new card among the others. -/
theorem keeps_issue {d : VaultDraws} {now : Instant} {accountId : Uuid} {type : Accounts.CardType}
    {limit : Option ℤ} {r : (Uuid × CardLifecycle.Card) × Vault}
    (h : issue env d now accountId type limit v = .ok r) (hc : c.issues = some (now, d)) :
    Keeps env c v r.2 := by
  obtain ⟨pan, hpan, hnew, -, haccounts, hcards, hsecrets⟩ := issue_ok h
  refine ⟨haccounts, fun a card' secrets' hcard' hsecrets' => ?_⟩
  rw [hcards, Table.lookup_insert_ite] at hcard'
  rw [hsecrets, Table.lookup_insert_ite] at hsecrets'
  split at hcard'
  · rename_i ha
    subst ha
    rw [if_pos rfl] at hsecrets'
    obtain rfl := Option.some.inj hcard'
    obtain rfl := Option.some.inj hsecrets'
    exact .inr ⟨hnew, now, d, pan, hc, rfl, hpan, rfl, rfl, rfl⟩
  · rename_i ha
    rw [if_neg ha] at hsecrets'
    exact .inl ⟨card', hcard', hsecrets', rfl, rfl, rfl, rfl⟩

/-- A step and another. -/
theorem Keeps.trans {v'' : Vault} (h : Keeps env c v v') (h' : Keeps env c v' v'')
    (hsecrets : ∀ id, v'.cards.cards.lookup id = none → v.cards.cards.lookup id = none) :
    Keeps env c v v'' := by
  refine ⟨h'.1.trans h.1, fun id card'' secrets'' hcard'' hsecrets'' => ?_⟩
  rcases h'.2 id card'' secrets'' hcard'' hsecrets'' with ⟨card', hcard', hsec', hsame⟩ |
    ⟨hnew, hissued⟩
  · rcases h.2 id card' secrets'' hcard' hsec' with ⟨card, hcard, hsec, hsame'⟩ |
      ⟨hnew, now, d, pan, hc, hid, hpan, hsealed, hlast4, hexp⟩
    · exact .inl ⟨card, hcard, hsec, hsame.1.trans hsame'.1, hsame.2.1.trans hsame'.2.1,
        hsame.2.2.1.trans hsame'.2.2.1, hsame.2.2.2.trans hsame'.2.2.2⟩
    · refine .inr ⟨hnew, now, d, pan, hc, hid, hpan, hsealed, hsame.2.1.trans hlast4, ?_⟩
      rw [hsame.2.2.1, hsame.2.2.2, hexp]
  · exact .inr ⟨hsecrets id hnew, hissued⟩

/-- A change of a card takes none away. -/
theorem lookup_of_update {id : Uuid} {f : CardLifecycle.Card → CardLifecycle.Card}
    {r : CardLifecycle.Card × Vault} (h : onCards (update id f) v = .ok r) {a : Uuid}
    (hnone : r.2.cards.cards.lookup a = none) : v.cards.cards.lookup a = none := by
  unfold onCards update at h
  split at h
  · cases h
  · cases h
    dsimp only at hnone
    rw [Table.lookup_insert_ite] at hnone
    split at hnone
    · cases hnone
    · exact hnone

theorem keeps_replace {d : VaultDraws} {now : Instant} {card : CardLifecycle.Card} {id : Uuid}
    {r : CardLifecycle.Card × Vault} (h : replace env d now card id v = .ok r)
    (hc : c.issues = some (now, d)) : Keeps env c v r.2 := by
  obtain ⟨_, v₁, hfirst, h⟩ := body_bind_ok.1 h
  obtain ⟨fresh, v₂, hissue, h⟩ := body_bind_ok.1 h
  obtain ⟨_, v₃, hlast, h⟩ := body_bind_ok.1 h
  obtain rfl := body_pure_ok.1 h
  have hkeeps₁ : Keeps env c v v₁ := by
    apply keeps_update _ hfirst
    exact fun _ => ⟨rfl, rfl, rfl, rfl⟩
  have hkeeps₂ := keeps_issue hissue hc
  have hkeeps₃ : Keeps env c v₂ v₃ := by
    apply keeps_update _ hlast
    exact fun _ => ⟨rfl, rfl, rfl, rfl⟩
  refine (hkeeps₁.trans hkeeps₂ fun a => lookup_of_update hfirst).trans hkeeps₃ fun a hnone => ?_
  obtain ⟨pan, -, -, -, -, hcards, -⟩ := issue_ok hissue
  dsimp only at hnone hcards
  rw [hcards, Table.lookup_insert_ite] at hnone
  split at hnone
  · cases hnone
  · exact lookup_of_update hfirst hnone

/-! ## The calls -/

/-- What a call promises when it ends: what it reveals are the columns of a card that it found, active
and its user's. -/
def Promise (env : Env) (c : Call) (own : List (Vault × Vault)) :
    Except Error (Option Revealed) → Prop
  | .ok (some revealed) => ∃ userId id v card secrets, c = .reveal userId id ∧ (v, v) ∈ own ∧
      v.cards.cards.lookup id = some card ∧ v.secrets.lookup id = some secrets ∧
      v.cards.accounts.lookup card.accountId = some userId ∧ card.status = .active ∧
      decryptPan env secrets.panCiphertext = .ok revealed.pan ∧
      decryptPan env secrets.cvvCiphertext = .ok revealed.cvv ∧
      revealed.expMonth = card.expMonth ∧ revealed.expYear = card.expYear
  | _ => True

/-- The newest step of a call keeps the cards. -/
def Did (env : Env) (c : Call) : List (Vault × Vault) → Prop
  | [] => True
  | (v, v') :: _ => Keeps env c v v'

section Parts

variable {α : Type} {own : List (Vault × Vault)}

/-- A call whose answer reveals nothing. -/
theorem does_silent {p : Handler α} (hp : p.Each (Keeps env c)) :
    (p >>= fun _ => (pure none : Handler (Option Revealed))).Does (Did env c) (Promise env c)
      own :=
  hp.does_bind (fun _ _ _ h => h) (fun _ _ _ => trivial) fun _ _ => trivial

theorem each_zoom_keeps {p : CardLifecycle.Handler α}
    (hp : p.Each fun s s' => ∀ v : Vault, v.cards = s → Keeps env c v { v with cards := s' }) :
    (p.zoom cardsPart).Each (Keeps env c) :=
  hp.zoom fun _ v h => h v rfl

/-- A read of the cards, then more. -/
theorem each_getForUser {k : CardLifecycle.Card × CardSecrets → Handler α} {userId id : Uuid}
    (hk : ∀ found, (k found).Each (Keeps env c)) : (getForUser userId id >>= k).Each (Keeps env c) := by
  refine each_bind (each_bind (each_read _ (Keeps.refl c)) fun found => ?_) hk
  cases found <;> trivial

/-- A status is written, and an event. -/
theorem each_switch {id : Uuid} {f : CardLifecycle.Card → CardLifecycle.Card}
    (hf : ∀ card, SameCard card (f card)) {k : CardLifecycle.Card → CardLifecycle.Handler α}
    (hk : ∀ card, (k card).Each fun s s' => s'.cards = s.cards ∧ s'.accounts = s.accounts) :
    (CardLifecycle.transaction (update id f) >>= k).Each fun s s' =>
      ∀ v : Vault, v.cards = s → Keeps env c v { v with cards := s' } := by
  refine each_bind (each_attempt (fun s v hs => ?_) fun s r h v hs => ?_) fun card =>
    (hk card).imp fun s s' hsame v hs => ?_
  · subst hs
    exact .refl c v
  · subst hs
    have hon : onCards (update id f) v = .ok (r.1, { v with cards := r.2 }) := by
      unfold onCards
      rw [h]
      rfl
    exact keeps_update hf hon
  · subst hs
    refine ⟨hsame.2, fun a card' secrets' hcard hsecrets => .inl ⟨card', ?_, hsecrets, rfl, rfl, rfl,
      rfl⟩⟩
    rw [← hsame.1]
    exact hcard

theorem each_setStatus {now : Instant} {userId id : Uuid} {target : Target} :
    (CardLifecycle.setStatus now userId id target).Each fun s s' =>
      ∀ v : Vault, v.cards = s → Keeps env c v { v with cards := s' } := by
  refine each_bind (each_bind (each_read _ fun s v hs => hs ▸ Keeps.refl c v) fun found => ?_)
    fun card => ?_
  · cases found <;> trivial
  · split
    · trivial
    · refine each_switch ?_ fun _ => ?_
      · exact fun _ => ⟨rfl, rfl, rfl, rfl⟩
      · exact each_bind (each_modify fun _ => ⟨rfl, rfl⟩) fun _ => each_pure _

theorem each_activate {now : Instant} {userId id : Uuid} :
    (CardLifecycle.activate now userId id).Each fun s s' =>
      ∀ v : Vault, v.cards = s → Keeps env c v { v with cards := s' } := by
  refine each_bind (each_bind (each_read _ fun s v hs => hs ▸ Keeps.refl c v) fun found => ?_)
    fun card => ?_
  · cases found <;> trivial
  · split
    · trivial
    · refine each_switch ?_ fun _ => ?_
      · exact fun _ => ⟨rfl, rfl, rfl, rfl⟩
      · exact each_bind (each_modify fun _ => ⟨rfl, rfl⟩) fun _ => each_pure _

theorem does_reveal {userId id : Uuid} :
    (reveal env userId id >>= fun revealed =>
      (pure (some revealed) : Handler (Option Revealed))).Does (Did env (.reveal userId id))
      (Promise env (.reveal userId id)) [] := by
  refine does_bind (does_bind (does_bind (does_read fun v => ⟨Keeps.refl _ v, ?_⟩)))
  dsimp only
  cases hfound : ((v.cards.cards.lookup id).filter fun card =>
      v.cards.accounts.lookup card.accountId = some userId).bind fun card =>
        (v.secrets.lookup id).map fun secrets => (card, secrets) with
  | none => trivial
  | some found =>
    obtain ⟨card, hcard, hmap⟩ := Option.bind_eq_some_iff.1 hfound
    obtain ⟨secrets, hsecrets, rfl⟩ := Option.map_eq_some_iff.1 hmap
    obtain ⟨hcard, howner⟩ := Option.filter_eq_some_iff.1 hcard
    dsimp only
    show Does _ _ (ite _ _ _) _
    split
    · trivial
    · rename_i hactive
      cases hpan : decryptPan env secrets.panCiphertext with
      | error e => trivial
      | ok pan =>
        cases hcvv : decryptPan env secrets.cvvCiphertext with
        | error e =>
          trivial
        | ok cvv =>
          exact ⟨userId, id, v, card, secrets, rfl, List.mem_cons_self, hcard, hsecrets,
            by simpa using howner, not_not.1 hactive, hpan, hcvv, rfl, rfl⟩

end Parts

theorem handle_does (env : Env) (c : Call) :
    (handle env c).Does (Did env c) (Promise env c) [] := by
  cases c with
  | accountCreated now d payload =>
    apply does_silent
    unfold onAccountCreated
    split
    · trivial
    · exact each_tryCatch (each_bind (each_attempt (Keeps.refl _) fun v r h =>
        keeps_issue h rfl) fun _ => trivial) fun _ => trivial
  | setStatus now userId id target => exact does_silent (each_zoom_keeps each_setStatus)
  | replaceVirtual now userId id d =>
    refine does_silent (each_getForUser fun found => ?_)
    split
    · trivial
    · split
      · trivial
      · exact each_attempt (Keeps.refl _) fun v r h => keeps_replace h rfl
  | activate now userId id => exact does_silent (each_zoom_keeps each_activate)
  | reveal userId id => exact does_reveal
  | orderPhysical userId accountId shipAddress =>
    apply does_silent
    refine each_bind (each_read _ (Keeps.refl _)) fun owner => ?_
    cases owner with
    | none => trivial
    | some owner =>
      dsimp only
      split
      · trivial
      · refine each_bind (each_read _ (Keeps.refl _)) fun type => ?_
        split
        · trivial
        · exact each_modify fun v => Keeps.refl _ v

/-! ## Runs -/

/-- Every card has the columns that one of the steps issued it with. -/
theorem issued_of_run (hrun : Run (fun _ => handle env) (fun _ => True) v₀ tr P)
    (hempty : v₀.cards.cards = ∅) {id : Uuid} {card : CardLifecycle.Card} {secrets : CardSecrets}
    (hcard : P.state.cards.cards.lookup id = some card)
    (hsecrets : P.state.secrets.lookup id = some secrets) :
    ∃ x ∈ tr, x.pre.cards.cards.lookup id = none ∧ ∃ now d pan, x.call.issues = some (now, d) ∧
      d.cardId = id ∧ Issued env now d pan card secrets := by
  refine hrun.induct (I := fun tr v => ∀ card secrets, v.cards.cards.lookup id = some card →
    v.secrets.lookup id = some secrets → ∃ x ∈ tr, x.pre.cards.cards.lookup id = none ∧
      ∃ now d pan, x.call.issues = some (now, d) ∧ d.cardId = id ∧
        Issued env now d pan card secrets) ?_ ?_ card secrets hcard hsecrets
  · intro card secrets hcard
    rw [hempty, AList.lookup_empty] at hcard
    cases hcard
  · intro later x earlier hsplit ih card' secrets hcard' hsecrets'
    have hdid : Did env x.call ((x.pre, x.post) :: own x.tid earlier) :=
      (hrun.does fun _ c _ => handle_does env c).1 later x earlier hsplit
    rcases hdid.2 id card' secrets hcard' hsecrets' with ⟨card, hcard, hsec, hsame⟩ | ⟨hnew, hissued⟩
    · obtain ⟨y, hy, hynew, now, d, pan, hcall, hid, hgen, hsealed, hlast4, hexp⟩ :=
        ih card secrets hcard hsec
      refine ⟨y, List.mem_cons_of_mem x hy, hynew, now, d, pan, hcall, hid, hgen, hsealed,
        hsame.2.1.trans hlast4, ?_⟩
      rw [hsame.2.2.1, hsame.2.2.2, hexp]
    · exact ⟨x, List.mem_cons_self, hnew, hissued⟩

/-- **Revealed as issued.** In every interleaving of the calls from the time when there were no cards, what
`reveal` answers is the number, the code and the expiry that the card was drawn with when it was issued;
the user owned the account of the card, which was active, and the number ends in its last four digits. -/
theorem revealed_as_issued (env : Env) (hgcm : env.gcm.Lawful) (v₀ : Vault)
    (hempty : v₀.cards.cards = ∅) (tr : List (Step Vault Call))
    (P : Pool Vault Error (Option Revealed) Call)
    (hrun : Run (fun _ => handle env) (fun _ => True) v₀ tr P) (i : ℕ) (userId id : Uuid)
    (revealed : Revealed) (hreturned : P.Returned i (.reveal userId id) (some revealed)) :
    ∃ x ∈ tr, ∃ now d pan, x.call.issues = some (now, d) ∧ d.cardId = id ∧
      x.pre.cards.cards.lookup id = none ∧
      Cards.generatePan env.cfg.cardDemoBin d.panBody = .ok pan ∧
      revealed = ⟨panText pan, generateCvv d, (Cards.generateExpiry now).1,
        (Cards.generateExpiry now).2⟩ ∧
      ∃ y ∈ tr, y.tid = i ∧ ∃ card, y.pre.cards.cards.lookup id = some card ∧
        card.status = .active ∧ card.last4 = Cards.last4 pan ∧
        y.pre.cards.accounts.lookup card.accountId = some userId := by
  have hpromise : Promise env (.reveal userId id) (own i tr) (.ok (some revealed)) :=
    (hrun.does fun _ c _ => handle_does env c).2 i _ hreturned.thread
  obtain ⟨_, _, v, card, secrets, heq, hmem, hcard, hsecrets, howner, hactive, hpan, hcvv, hmonth,
    hyear⟩ := hpromise
  obtain ⟨rfl, rfl⟩ := Call.reveal.inj heq
  obtain ⟨y, hy, htid, rfl, -⟩ := mem_own.1 hmem
  obtain ⟨later, earlier, hsplit⟩ := List.mem_iff_append.1 hy
  obtain ⟨P', hrun', hstate⟩ := hrun.before hsplit
  rw [← hstate] at hcard hsecrets
  obtain ⟨x, hx, hnew, now, d, pan, hcall, hid, hgen, hsealed, hlast4, hexp⟩ :=
    issued_of_run hrun' hempty hcard hsecrets
  have hpan' : revealed.pan = panText pan := by
    rw [hsealed] at hpan
    exact Except.ok.inj (hpan.symm.trans (AesGcm.decrypt_stored hgcm _ _ _))
  have hcvv' : revealed.cvv = generateCvv d := by
    rw [hsealed] at hcvv
    exact Except.ok.inj (hcvv.symm.trans (AesGcm.decrypt_stored hgcm _ _ _))
  refine ⟨x, by rw [hsplit]; simp [hx], now, d, pan, hcall, hid, hnew, hgen, ?_, y, hy, htid, card,
    by rw [← hstate, hcard], hactive, hlast4, howner⟩
  obtain ⟨number, code, month, year⟩ := revealed
  dsimp only at hpan' hcvv' hmonth hyear
  rw [hpan', hcvv', hmonth, hyear, ← hexp]

/-! ### One card -/

/-- A cipher that hides nothing. -/
def sampleGcm : AesGcm.Gcm where
  sealUnder := fun _ _ text => (List.replicate 16 0, text)
  openUnder := fun _ _ _ enc => some enc
  lossy := fun _ => ""

theorem sampleGcm_lawful : sampleGcm.Lawful where
  length_tag := fun _ _ _ => List.length_replicate
  open_seal := fun _ _ _ => rfl

def sampleVaultEnv : Env := ⟨{}, sampleGcm, AesGcm.Key.ofConfig none⟩

/-- User 1 has a checking account, 10. -/
def sampleVault : Vault where
  cards := ⟨∅, (∅ : Table Uuid Uuid).insert 10 1, []⟩
  secrets := ∅
  accountTypes := fun _ => .checking
  orders := []

def sampleDraws : VaultDraws where
  cardId := 5
  panBody := [1, 2, 3, 4, 5, 6, 7, 8, 9]
  cvv := 42
  panIv := ⟨List.replicate 12 3, List.length_replicate⟩
  cvvIv := ⟨List.replicate 12 2, List.length_replicate⟩

/-- A card is issued, frozen, unfrozen and revealed. -/
def sampleReveal : List (Step Vault Call) × Pool Vault Error (Option Revealed) Call :=
  exec (fun _ => handle sampleVaultEnv) sampleVault
    [.call (.accountCreated 1 sampleDraws ⟨10, 1, .checking, 0⟩), .step 0,
      .call (.setStatus 1 1 5 .frozen), .step 1, .step 1, .step 1,
      .call (.setStatus 2 1 5 .active), .step 2, .step 2, .step 2,
      .call (.reveal 1 5), .step 3]

theorem revealed_as_issued_sample : ∃ x ∈ sampleReveal.1, ∃ now d pan,
    x.call.issues = some (now, d) ∧ d.cardId = 5 ∧ x.pre.cards.cards.lookup 5 = none ∧
      Cards.generatePan sampleVaultEnv.cfg.cardDemoBin d.panBody = .ok pan ∧
      (⟨"4999991234567894", "042", 1, 1974⟩ : Revealed) = ⟨panText pan, generateCvv d,
        (Cards.generateExpiry now).1, (Cards.generateExpiry now).2⟩ ∧
      ∃ y ∈ sampleReveal.1, y.tid = 3 ∧ ∃ card, y.pre.cards.cards.lookup 5 = some card ∧
        card.status = .active ∧ card.last4 = Cards.last4 pan ∧
        y.pre.cards.accounts.lookup card.accountId = some 1 :=
  revealed_as_issued sampleVaultEnv sampleGcm_lawful sampleVault rfl _ _
    (exec_run _ fun _ _ => trivial) 3 1 5 _ (by decide +kernel)

end BankDemo.CardVault
