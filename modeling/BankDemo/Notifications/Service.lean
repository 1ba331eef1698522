import BankDemo.Foundations.JsDate
import BankDemo.Store

/-!
# Notices to customers

`NotificationsService.create` writes a notice; `NotificationProducerService` writes one when a
transaction is posted, as far as the customer's preferences want it (`onTxSettled`).

The amounts are written with thousands separators (`formatUsd`, `formatCents`). Different amounts
are written differently (`formatUsd_injective`), so the notice of a posted transaction says one
amount and one direction (`settledNotice_says_iff`).
-/

namespace BankDemo.Notifications

/-! ## Amounts -/

/-- Digits from the last to the first, with a comma after every third that is not the first. -/
def withCommasRev : List Char → List Char
  | a :: b :: c :: d :: rest => a :: b :: c :: ',' :: withCommasRev (d :: rest)
  | ds => ds

/-- `toString().replace(/\B(?=(\d{3})+(?!\d))/g, ',')`. -/
def withCommas (n : ℕ) : String :=
  String.ofList (withCommasRev (toString n).toList.reverse).reverse

/-- `formatUsd`. -/
def formatUsd (cents : ℤ) : String :=
  let abs := cents.natAbs
  withCommas (abs / 100) ++ "." ++ JsDate.pad 2 (abs % 100 : ℕ)

/-- `formatCents`. -/
def formatCents (cents : ℤ) : String :=
  (if cents < 0 then "-" else "") ++ "$" ++ formatUsd cents

/-! ## Notices -/

inductive NotificationCategory
  | transaction
  | security
  | offer
  | system
  deriving DecidableEq

/-- A notice. -/
structure Notification where
  userId : Uuid
  category : NotificationCategory
  title : String
  body : String
  ctaUrl : Option String
  deriving DecidableEq

/-- What a customer wants to hear of, with the defaults of the schema. -/
structure NotificationPreference where
  txAll : Bool := true
  txLargeOnly : Bool := false
  txLargeThresholdCents : ℤ := 10000
  deriving DecidableEq

/-- The bank, the notices and the preferences. -/
structure Inboxes where
  world : World
  notifications : List Notification
  preferences : Table Uuid NotificationPreference

/-- The bank among the notices. -/
def worldPart : Prog.Part Inboxes World where
  get := Inboxes.world
  put w s := { s with world := w }
  get_put _ _ := rfl
  put_get _ := rfl
  put_put _ _ _ := rfl

/-- A call, as a program on the bank and the notices. -/
abbrev NoticeService (α : Type) := Prog Inboxes Error α

/-- `NotificationsService.create`. The insert may fail. -/
def createNotification (up : Bool) (n : Notification) : NoticeService Unit :=
  if up then .modify (fun _ => true) fun s => { s with notifications := s.notifications ++ [n] }
  else throw (.internal "notification.create")

/-- The preferences of a customer, those of the schema if there are none. -/
def Inboxes.preferencesOf (s : Inboxes) (userId : Uuid) : NotificationPreference :=
  (s.preferences.lookup userId).getD {}

/-- `getPreferences`, which writes the row when there is none. -/
def getPreferences (userId : Uuid) : NoticeService NotificationPreference :=
  .attempt (fun _ => true) fun s =>
    let prefs := s.preferencesOf userId
    .ok (prefs, { s with preferences := s.preferences.insert userId prefs })

/-- The payload of `TransactionSettled`, as far as the producer reads it. -/
structure SettledPayload where
  userId : Uuid
  amountCents : ℤ
  deriving DecidableEq

/-- The notice of a posted transaction. -/
def settledNotice (payload : SettledPayload) : Notification where
  userId := payload.userId
  category := .transaction
  title := "Transaction posted"
  body :=
    let direction := if payload.amountCents < 0 then "sent" else "received"
    s!"You {direction} ${formatUsd |payload.amountCents|}."
  ctaUrl := some "/home/spending"

/-- The preferences want to hear of the amount. -/
def NotificationPreference.wants (prefs : NotificationPreference) (amountCents : ℤ) : Bool :=
  prefs.txAll && !(prefs.txLargeOnly && |amountCents| < prefs.txLargeThresholdCents)

/-- `onTxSettled`. -/
def onTxSettled (up : Bool) (payload : SettledPayload) : NoticeService Unit :=
  tryCatch (do
    let prefs ← getPreferences payload.userId
    if prefs.wants payload.amountCents then createNotification up (settledNotice payload)
    else pure ()) fun _ => pure ()

open JsDate

/-! ## What the amounts say -/

/-- Without the commas, the digits are there as they were. -/
theorem filter_withCommasRev (ds : List Char) :
    (withCommasRev ds).filter (· ≠ ',') = ds.filter (· ≠ ',') := by
  fun_induction withCommasRev ds with
  | case1 a b c d rest ih =>
    calc (a :: b :: c :: ',' :: withCommasRev (d :: rest)).filter (· ≠ ',')
        = ([a, b, c] ++ [','] ++ withCommasRev (d :: rest)).filter (· ≠ ',') := rfl
      _ = [a, b, c].filter (· ≠ ',') ++ (d :: rest).filter (· ≠ ',') := by
        rw [List.filter_append, List.filter_append, ih]
        simp
      _ = (a :: b :: c :: d :: rest).filter (· ≠ ',') := by
        rw [← List.filter_append]
        rfl
  | case2 ds => rfl

theorem withCommas_injective {m n : ℕ} (h : withCommas m = withCommas n) : m = n := by
  have hdigits : ∀ k : ℕ, ((withCommas k).toList.reverse.filter (· ≠ ',')) =
      (Nat.toDigits 10 k).reverse := by
    intro k
    have hlist : (toString k).toList = Nat.toDigits 10 k := Nat.toList_repr ..
    rw [withCommas, String.toList_ofList, List.reverse_reverse, filter_withCommasRev, hlist]
    refine List.filter_eq_self.2 fun c hc => ?_
    have hdigit := Nat.isDigit_of_mem_toDigits (by omega) (by omega) (List.mem_reverse.1 hc)
    refine decide_eq_true fun hcomma => ?_
    rw [hcomma] at hdigit
    exact absurd hdigit (by decide)
  have hlist := hdigits m
  rw [h, hdigits n, List.reverse_inj] at hlist
  have hvalue := congrArg (fun ds => Nat.ofDigitChars 10 ds 0) hlist
  simpa only [Nat.ofDigitChars_ten_toDigits] using hvalue.symm

/-- **Different amounts are written differently.** -/
theorem formatUsd_injective {x y : ℤ} (h : formatUsd x = formatUsd y) : x.natAbs = y.natAbs := by
  have hlist := congrArg String.toList h
  simp only [formatUsd, String.toList_append] at hlist
  obtain ⟨hdollars, hcents⟩ := pad_append_inj (by omega) (by omega) (by omega) hlist
  have hwhole := withCommas_injective
    (String.toList_injective (List.append_cancel_right hdollars))
  omega

/-! ## The notice of a posted transaction -/

/-- The body of the notice. -/
def postedBody (direction : String) (amountCents : ℤ) : String :=
  s!"You {direction} ${formatUsd |amountCents|}."

theorem postedBody_injective {direction : String} {x y : ℤ}
    (h : postedBody direction x = postedBody direction y) : x.natAbs = y.natAbs := by
  have hlist := congrArg String.toList h
  simp only [postedBody, String.toList_append, List.append_assoc, List.append_cancel_left_eq,
    List.append_cancel_right_eq, String.toList_inj, toString] at hlist
  have habs := formatUsd_injective hlist
  rwa [Int.natAbs_abs, Int.natAbs_abs] at habs

theorem sent_ne_received (x y : ℤ) : postedBody "sent" x ≠ postedBody "received" y := by
  intro h
  have hlist := congrArg String.toList h
  simp only [postedBody, String.toList_append, List.append_assoc, List.append_cancel_left_eq,
    toString] at hlist
  exact absurd (List.cons.inj hlist).1 (by decide)

/-- A notice says what was moved: `net` cents to the account, or from it when negative. -/
structure Says (n : Notification) (net : ℤ) : Prop where
  sent : net < 0 → n.body = postedBody "sent" net
  received : 0 < net → n.body = postedBody "received" net

/-- The notice says what the payload says. -/
theorem settledNotice_says_iff (userId : Uuid) (amountCents net : ℤ) :
    Says (settledNotice ⟨userId, amountCents⟩) net ↔ net = 0 ∨ net = amountCents := by
  have hbody : (settledNotice ⟨userId, amountCents⟩).body =
      postedBody (if amountCents < 0 then "sent" else "received") amountCents := rfl
  constructor
  · rintro ⟨hsent, hreceived⟩
    rw [hbody] at hsent hreceived
    rcases lt_trichotomy net 0 with hneg | hzero | hpos
    · right
      have h := hsent hneg
      split at h
      · have habs := postedBody_injective h
        omega
      · exact absurd h.symm (sent_ne_received _ _)
    · exact .inl hzero
    · right
      have h := hreceived hpos
      split at h
      · exact absurd h (sent_ne_received _ _)
      · have habs := postedBody_injective h
        omega
  · rintro (rfl | rfl)
    · exact ⟨fun h => absurd h (lt_irrefl 0), fun h => absurd h (lt_irrefl 0)⟩
    · constructor
      · intro hneg
        rw [hbody, if_pos hneg]
      · intro hpos
        rw [hbody, if_neg (by omega)]

end BankDemo.Notifications
