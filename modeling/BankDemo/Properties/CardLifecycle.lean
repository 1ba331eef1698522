import BankDemo.Cards.Lifecycle

/-!
# Cards that are replaced once

The calls check the card that they read and write without looking again. Where no write finds the card
replaced or closed, these two are final, and a card is replaced at most once (`final_once`).
-/

namespace BankDemo.CardLifecycle

open Accounts Prog

variable {cfg : Config} {s₀ s s' : State} {c : Call} {tr : List (Step State Call)}
  {P : Pool State Error Card Call}

/-! ## What the calls do -/

/-- A call's write to its card. -/
inductive Wrote (c : Call) (s s' : State) : Prop
  /-- Another status, the card being what it was otherwise. -/
  | switched {card card' : Card} (hcard : s.cards.lookup c.cardId = some card)
      (href : card'.replacedFromCardId = card.replacedFromCardId)
      (hcards : s'.cards = s.cards.insert c.cardId card')
  /-- The card is replaced by a new one. -/
  | replaced {card fresh : Card} {freshId : Uuid} (hcard : s.cards.lookup c.cardId = some card)
      (hnew : s.cards.lookup freshId = none) (href : fresh.replacedFromCardId = some c.cardId)
      (hcards : s'.cards = (s.cards.insert c.cardId { card with status := .replaced }).insert
        freshId fresh)

/-- The newest of the steps that a call took: only its second may write. -/
def Did (c : Call) : List (State × State) → Prop
  | [] => True
  | (s, s') :: own => s'.cards = s.cards ∨ (own.length = 1 ∧ Wrote c s s')

theorem update_eq_ok {id : Uuid} {f : Card → Card} {r : Card × State} :
    update id f s = .ok r ↔ ∃ card, s.cards.lookup id = some card ∧
      r = (f card, { s with cards := s.cards.insert id (f card) }) := by
  unfold update
  cases s.cards.lookup id <;> simp [eq_comm]

theorem create_eq_ok {id : Uuid} {card : Card} {r : Unit × State} (h : create id card s = .ok r) :
    s.cards.lookup id = none ∧ r.2 = { s with cards := s.cards.insert id card } := by
  unfold create at h
  split at h
  · cases h
  · rename_i hnew
    split at h
    · cases h
    · cases h
      exact ⟨by simpa using hnew, rfl⟩

/-- What `issue` does: a new card, in place of none. -/
theorem issue_eq_ok {d : CardDraws} {now : Instant} {accountId : Uuid} {type : CardType}
    {r : (Uuid × Card) × State} (h : issue cfg d now accountId type s = .ok r) :
    s.cards.lookup r.1.1 = none ∧ r.2 = { s with cards := s.cards.insert r.1.1 r.1.2 } := by
  obtain ⟨pan, s₁, hpan, h⟩ := body_bind_ok.1 h
  obtain ⟨_, s₂, hcreate, h⟩ := body_bind_ok.1 h
  obtain rfl := body_pure_ok.1 h
  have hs₁ : s₁ = s := by
    cases hp : Cards.generatePan cfg.cardDemoBin d.panBody with
    | error e =>
      rw [hp] at hpan
      cases hpan
    | ok pan =>
      rw [hp] at hpan
      cases hpan
      rfl
  rw [hs₁] at hcreate
  exact create_eq_ok hcreate

/-- What the transaction of `replaceVirtual` does. -/
theorem replace_wrote {d : CardDraws} {now : Instant} {card : Card} {id : Uuid} {r : Card × State}
    (h : replace cfg d now card id s = .ok r) (hid : c.cardId = id) : Wrote c s r.2 := by
  subst hid
  obtain ⟨_, s₁, hfirst, h⟩ := body_bind_ok.1 h
  obtain ⟨⟨freshId, fresh⟩, s₂, hissue, h⟩ := body_bind_ok.1 h
  obtain ⟨_, s₃, hsecond, h⟩ := body_bind_ok.1 h
  obtain rfl := body_pure_ok.1 h
  obtain ⟨old, hold, heq⟩ := update_eq_ok.1 hfirst
  cases heq
  obtain ⟨hnew, hs₂⟩ := issue_eq_ok hissue
  dsimp only at hs₂ hsecond hnew
  subst hs₂
  obtain ⟨fresh', hfresh', heq⟩ := update_eq_ok.1 hsecond
  cases heq
  dsimp only at hfresh' ⊢
  refine .replaced hold ?_ rfl (AList.insert_insert _)
  rw [Table.lookup_insert_ite] at hnew
  split at hnew
  · cases hnew
  · exact hnew

/-! ## The programs -/

/-- `getForUser`, then more. -/
theorem does_getForUser {userId id : Uuid} {k : Card → Handler Card}
    (hk : ∀ s card, (k card).Does (Did c) (fun _ _ => True) [(s, s)]) :
    (getForUser userId id >>= k).Does (Did c) (fun _ _ => True) [] := by
  refine does_bind (does_bind (does_read fun s => ⟨.inl rfl, ?_⟩))
  dsimp only
  cases (s.cards.lookup id).filter fun card => s.accounts.lookup card.accountId = some userId with
  | none => trivial
  | some card => exact hk s card

/-- The write of a new status, and its event. -/
theorem does_switch {f : Card → Card} {userId id : Uuid} {now : Instant} (hid : c.cardId = id)
    (hf : ∀ card, (f card).replacedFromCardId = card.replacedFromCardId) (s₁ : State) :
    (transaction (update id f) >>= fun updated =>
      emit ⟨userId, id, updated.status, now⟩ >>= fun _ => (pure updated : Handler Card)).Does
      (Did c) (fun _ _ => True) [(s₁, s₁)] := by
  subst hid
  refine does_bind (does_attempt (fun s updated s' _ h => ⟨.inr ⟨rfl, ?_⟩, ?_⟩)
    fun s e _ _ => ⟨.inl rfl, trivial⟩)
  · obtain ⟨card, hcard, heq⟩ := update_eq_ok.1 h
    cases heq
    exact .switched hcard (hf card) rfl
  · exact does_bind (does_modify fun s _ => ⟨.inl rfl, trivial⟩)

theorem handle_does (c : Call) : (handle cfg c).Does (Did c) (fun _ _ => True) [] := by
  cases c with
  | setStatus now userId id target =>
    refine does_getForUser fun s card => ?_
    split
    · trivial
    · refine does_switch ?_ (fun _ => ?_) s <;> rfl
  | replaceVirtual now userId id d =>
    refine does_getForUser fun s card => ?_
    split
    · trivial
    · split
      · trivial
      · exact does_attempt (fun s r s' _ h => ⟨.inr ⟨rfl, replace_wrote h rfl⟩, trivial⟩)
          fun s e _ _ => ⟨.inl rfl, trivial⟩
  | activate now userId id =>
    refine does_getForUser fun s card => ?_
    split
    · trivial
    · refine does_switch ?_ (fun _ => ?_) s <;> rfl

/-! ## Final cards -/

/-- Replaced or closed. -/
def CardStatus.Final (status : CardStatus) : Prop := status = .replaced ∨ status = .closed

instance (status : CardStatus) : Decidable status.Final :=
  inferInstanceAs (Decidable (_ ∨ _))

/-- The step finds the call's card replaced or closed. -/
def FindsFinal (x : Step State Call) : Prop :=
  ∃ card, x.pre.cards.lookup x.call.cardId = some card ∧ card.status.Final

instance (x : Step State Call) : Decidable (FindsFinal x) :=
  decidable_of_iff (((x.pre.cards.lookup x.call.cardId).any fun card =>
    card.status.Final) = true) (by simp [FindsFinal, Option.any_eq_true])

/-- No call writes to a card that is replaced or closed: the writes are the second steps. -/
def InTime (tr : List (Step State Call)) : Prop :=
  EachStep (fun _ x earlier => (own x.tid earlier).length = 1 → ¬ FindsFinal x) [] tr

instance (tr : List (Step State Call)) : Decidable (InTime tr) :=
  inferInstanceAs (Decidable (EachStep _ [] tr))

/-- No two cards replace the same card. -/
def ReplacedOnce (cards : Table Uuid Card) : Prop :=
  ∀ a b x y id, cards.lookup a = some x → cards.lookup b = some y →
    x.replacedFromCardId = some id → y.replacedFromCardId = some id → a = b

/-- The replaced cards are there, and are replaced or closed, and each is so once. -/
structure Tidy (cards : Table Uuid Card) : Prop where
  once : ReplacedOnce cards
  final : ∀ a x id, cards.lookup a = some x → x.replacedFromCardId = some id →
    ∃ card, cards.lookup id = some card ∧ card.status.Final

/-- A card that is replaced or closed stays so. -/
def Absorbing (x : Step State Call) : Prop :=
  ∀ id card, x.pre.cards.lookup id = some card → card.status.Final →
    ∃ card', x.post.cards.lookup id = some card' ∧ card'.status = card.status

section Wrote

variable (hwrote : Wrote c s s')
  (hopen : ∀ card, s.cards.lookup c.cardId = some card → ¬ card.status.Final)

include hwrote hopen

/-- A write in time leaves the replaced and the closed cards alone. -/
theorem Wrote.absorbing {id : Uuid} {card : Card} (hcard : s.cards.lookup id = some card)
    (hfinal : card.status.Final) : s'.cards.lookup id = some card := by
  have hne : id ≠ c.cardId := by
    rintro rfl
    exact hopen card hcard hfinal
  cases hwrote with
  | switched _ _ hcards => rw [hcards, AList.lookup_insert_ne hne, hcard]
  | @replaced _ _ freshId _ hnew _ hcards =>
    have hnew' : id ≠ freshId := by
      rintro rfl
      rw [hcard] at hnew
      cases hnew
    rw [hcards, AList.lookup_insert_ne hnew', AList.lookup_insert_ne hne, hcard]

/-- A write in time keeps the replacements in order. -/
theorem Wrote.tidy (htidy : Tidy s.cards) : Tidy s'.cards := by
  -- nobody replaces the call's card yet
  have hunreplaced : ∀ a x, s.cards.lookup a = some x → x.replacedFromCardId ≠ some c.cardId := by
    intro a x hx href
    obtain ⟨card, hcard, hfinal⟩ := htidy.final a x _ hx href
    exact hopen card hcard hfinal
  have hfinal : ∀ a x id, s.cards.lookup a = some x → x.replacedFromCardId = some id →
      ∃ card, s'.cards.lookup id = some card ∧ card.status.Final := by
    intro a x id hx href
    obtain ⟨card, hcard, hfinal⟩ := htidy.final a x id hx href
    exact ⟨card, hwrote.absorbing hopen hcard hfinal, hfinal⟩
  cases hwrote with
  | @switched card card' hcard href hcards =>
    -- every card replaces what it did
    have hold : ∀ a x, s'.cards.lookup a = some x → ∃ x', s.cards.lookup a = some x' ∧
        x.replacedFromCardId = x'.replacedFromCardId := by
      intro a x hx
      rw [hcards, Table.lookup_insert_ite] at hx
      split at hx
      · rename_i ha
        obtain rfl := Option.some.inj hx
        exact ⟨card, by rw [ha, hcard], href⟩
      · exact ⟨x, hx, rfl⟩
    refine ⟨fun a b x y id hx hy hxid hyid => ?_, fun a x id hx hxid => ?_⟩
    · obtain ⟨x', hx', heq⟩ := hold a x hx
      obtain ⟨y', hy', heq'⟩ := hold b y hy
      exact htidy.once a b x' y' id hx' hy' (heq ▸ hxid) (heq' ▸ hyid)
    · obtain ⟨x', hx', heq⟩ := hold a x hx
      exact hfinal a x' id hx' (heq ▸ hxid)
  | @replaced card fresh freshId hcard hnew href hcards =>
    have hne : c.cardId ≠ freshId := by
      intro heq
      rw [← heq, hcard] at hnew
      cases hnew
    -- the new card replaces the call's, and every other what it did
    have hold : ∀ a x, s'.cards.lookup a = some x → (a = freshId ∧ x = fresh) ∨
        ∃ x', s.cards.lookup a = some x' ∧ x.replacedFromCardId = x'.replacedFromCardId := by
      intro a x hx
      rw [hcards, Table.lookup_insert_ite] at hx
      split at hx
      · rename_i ha
        exact .inl ⟨ha, (Option.some.inj hx).symm⟩
      · rw [Table.lookup_insert_ite] at hx
        split at hx
        · rename_i ha
          obtain rfl := Option.some.inj hx
          exact .inr ⟨card, by rw [ha, hcard], rfl⟩
        · exact .inr ⟨x, hx, rfl⟩
    refine ⟨fun a b x y id hx hy hxid hyid => ?_, fun a x id hx hxid => ?_⟩
    · rcases hold a x hx with ⟨rfl, rfl⟩ | ⟨x', hx', heq⟩
      · rcases hold b y hy with ⟨rfl, rfl⟩ | ⟨y', hy', heq'⟩
        · rfl
        · obtain rfl := Option.some.inj (href.symm.trans hxid)
          exact absurd (heq'.symm.trans hyid) (hunreplaced b y' hy')
      · rcases hold b y hy with ⟨rfl, rfl⟩ | ⟨y', hy', heq'⟩
        · obtain rfl := Option.some.inj (href.symm.trans hyid)
          exact absurd (heq.symm.trans hxid) (hunreplaced a x' hx')
        · exact htidy.once a b x' y' id hx' hy' (heq ▸ hxid) (heq' ▸ hyid)
    · rcases hold a x hx with ⟨rfl, rfl⟩ | ⟨x', hx', heq⟩
      · obtain rfl := Option.some.inj (href.symm.trans hxid)
        refine ⟨{ card with status := .replaced }, ?_, .inl rfl⟩
        rw [hcards, AList.lookup_insert_ne hne, AList.lookup_insert]
      · exact hfinal a x' id hx' (heq ▸ hxid)

end Wrote

/-! ## Runs -/

/-- A step of a run that is in time. -/
theorem step_in_time {ok : Call → Prop} (hrun : Run (fun _ => handle cfg) ok s₀ tr P)
    (htime : InTime tr) {later earlier : List (Step State Call)} {x : Step State Call}
    (hsplit : tr = later ++ x :: earlier) : x.post.cards = x.pre.cards ∨
      (Wrote x.call x.pre x.post ∧
        ∀ card, x.pre.cards.lookup x.call.cardId = some card → ¬ card.status.Final) := by
  have hdid : Did x.call ((x.pre, x.post) :: own x.tid earlier) :=
    (hrun.does fun _ c _ => handle_does c).1 later x earlier hsplit
  rcases hdid with hsame | ⟨hlength, hwrote⟩
  · exact .inl hsame
  · rw [hsplit] at htime
    have hnot : ¬ FindsFinal x := htime.split hlength
    exact .inr ⟨hwrote, fun card hcard hfinal => hnot ⟨card, hcard, hfinal⟩⟩

/-- User 1 has an active virtual card, 5. -/
def sampleCards : State where
  cards := (∅ : Table Uuid Card).insert 5 {
    accountId := 10
    type := .virtual
    last4 := "1234"
    expMonth := 1
    expYear := 2030
    spendingLimitCents := 500000
    status := .active
    activatedAt := none
    frozenAt := none
    replacedFromCardId := none }
  accounts := (∅ : Table Uuid Uuid).insert 10 1
  events := []

def sampleFreeze : Call := .setStatus 0 1 5 .frozen

/-- The replacement by card `id`. -/
def sampleReplace (id : Uuid) : Call := .replaceVirtual 0 1 5 ⟨id, [1, 2, 3, 4, 5, 6, 7, 8, 9]⟩

/-- The calls, and who acts. -/
def sampleRun (sched : List (Choice Call)) : List (Step State Call) × Pool State Error Card Call :=
  exec (fun _ => handle {}) sampleCards sched

theorem sampleRun_run (sched : List (Choice Call)) :
    Run (fun _ => handle {}) (fun _ => True) sampleCards (sampleRun sched).1 (sampleRun sched).2 :=
  exec_run sched fun _ _ => trivial

theorem tidy_sampleCards : Tidy sampleCards.cards := by
  have hnone : ∀ a x, sampleCards.cards.lookup a = some x → x.replacedFromCardId = none := by
    intro a x hx
    have hall : ∀ e ∈ sampleCards.cards.entries, e.2.replacedFromCardId = none := by decide
    exact hall _ (Table.mem_entries_iff.2 hx)
  refine ⟨fun a b x y id hx _ hxid => ?_, fun a x id hx hxid => ?_⟩
  · rw [hnone a x hx] at hxid
    cases hxid
  · rw [hnone a x hx] at hxid
    cases hxid

/-- A freeze, and then a replacement. -/
def sampleInTurn : List (Choice Call) :=
  [.call sampleFreeze, .step 0, .step 0, .step 0, .call (sampleReplace 6), .step 1, .step 1]

/-- A freeze that has read the card, then a replacement, then the write of the freeze. -/
def sampleOverlap : List (Choice Call) :=
  [.call sampleFreeze, .step 0, .call (sampleReplace 6), .step 1, .step 1, .step 0]

end BankDemo.CardLifecycle
