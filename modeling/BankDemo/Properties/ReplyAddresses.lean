import BankDemo.Mail.Rules
import BankDemo.Properties.InboundMail
import Mathlib.Data.List.GetD

/-!
# Answers to mail that was sent

An email of the desk asks for answers to `t-<token>@<domain>`. However a mail client writes this address,
the token is read off it (`parseToken_written`), no two threads have one token, and a thread keeps its
token and its customer. So in every interleaving an answer is filed in a thread with the one whom the
email was sent to (`answers_filed`).
-/

namespace BankDemo.Mail

open Prog

/-! ## Tokens -/

/-- A character of a token. -/
def isTokenChar (c : Char) : Bool := c.isDigit || ('a' ≤ c && c ≤ 'z')

theorem isTokenChar_hexDigit : ∀ n < 16, isTokenChar (hexDigit n) = true := by
  decide

theorem isTokenChar_hex {buf : List UInt8} : ∀ c ∈ hex buf, isTokenChar c = true := by
  intro c hc
  simp only [hex, List.mem_flatMap, List.mem_cons, List.not_mem_nil, or_false] at hc
  obtain ⟨b, -, rfl | rfl⟩ := hc
  · exact isTokenChar_hexDigit _ (Nat.div_lt_of_lt_mul b.toNat_lt)
  · exact isTokenChar_hexDigit _ (Nat.mod_lt _ (by omega))

/-- A text that may be a token. -/
structure IsToken (token : String) : Prop where
  nonempty : token.toList ≠ []
  chars : ∀ c ∈ token.toList, isTokenChar c = true

theorem isToken_generateToken (buf : Fin 12 → UInt8) : IsToken (generateToken buf) where
  nonempty := by simp [generateToken, hex]
  chars := by
    rw [generateToken, String.toList_ofList]
    exact isTokenChar_hex

/-! ## Addresses -/

/-- The texts are the same but for the case of their ASCII letters. -/
def SameButCase (a b : String) : Prop := a.toList.map Char.toLower = b.toList.map Char.toLower

instance (a b : String) : Decidable (SameButCase a b) := inferInstanceAs (Decidable (_ = _))

/-- A mail client writes an address as it is or behind a name, and may change its case. -/
inductive Written (a : String) : String → Prop
  | bare {b : String} (h : SameButCase b a) : Written a b
  | named {name b : String} (hname : '<' ∉ name.toList) (h : SameButCase b a) :
      Written a (String.ofList (name.toList ++ '<' :: b.toList ++ ['>']))

/-- A character of an address of the desk. -/
def isAddressChar (c : Char) : Bool := c.isAlphanum || c = '.' || c = '-' || c = '@'

/-- A domain as it is named: of letters, digits, dots and hyphens. -/
def IsDomain (domain : String) : Prop :=
  ∀ c ∈ domain.toList, c.isAlphanum = true ∨ c = '.' ∨ c = '-'

instance (domain : String) : Decidable (IsDomain domain) := List.decidableBAll _ domain.toList

theorem isAddressChar_iff (c : Char) : isAddressChar c = true ↔ (65 ≤ c.toNat ∧ c.toNat ≤ 90) ∨
    (97 ≤ c.toNat ∧ c.toNat ≤ 122) ∨ (48 ≤ c.toNat ∧ c.toNat ≤ 57) ∨ c.toNat = 46 ∨ c.toNat = 45 ∨
      c.toNat = 64 := by
  have hval : ∀ d : Char, c = d ↔ c.toNat = d.toNat := fun d => Char.toNat_inj.symm
  have halnum : c.isAlphanum = ((c.isUpper || c.isLower) || c.isDigit) := rfl
  have hupper : c.isUpper = decide (c.val ≥ 'A'.val ∧ c.val ≤ 'Z'.val) := rfl
  have hlower : c.isLower = (decide (c.val ≥ 'a'.val) && decide (c.val ≤ 'z'.val)) := rfl
  simp only [isAddressChar, halnum, hupper, hlower, Char.isDigit, hval, Bool.or_eq_true,
    Bool.and_eq_true, decide_eq_true_eq, ge_iff_le, UInt32.le_iff_toNat_le, or_assoc]
  rfl

theorem isAddressChar_toLower (c : Char) : isAddressChar c.toLower = isAddressChar c := by
  rcases JsString.toLower_cases c with hsame | ⟨hlow, hhigh, hlower⟩
  · rw [hsame]
  · rw [Bool.eq_iff_iff, isAddressChar_iff, isAddressChar_iff, hlower]
    omega

/-- Address characters are in ASCII, no white space and no angle brackets. -/
theorem isAddressChar_plain {c : Char} (h : isAddressChar c = true) :
    c.toNat < 128 ∧ JsString.isSpace c = false ∧ c ≠ '<' ∧ c ≠ '>' := by
  rw [isAddressChar_iff] at h
  refine ⟨by omega, ?_, ?_, ?_⟩
  · simp [JsString.isSpace]
    omega
  · rintro rfl
    revert h
    decide
  · rintro rfl
    revert h
    decide

theorem toList_replyAddress (domain token : String) : (replyAddress domain token).toList =
    't' :: '-' :: (token.toList ++ '@' :: domain.toList) := by
  simp [replyAddress, toString]

theorem isAddressChar_replyAddress {domain token : String} (hdomain : IsDomain domain)
    (htoken : IsToken token) : ∀ c ∈ (replyAddress domain token).toList, isAddressChar c = true := by
  have hchar : ∀ c, isTokenChar c = true → isAddressChar c = true := by
    intro c hc
    rw [isAddressChar_iff]
    simp only [isTokenChar, Char.isDigit, Char.le_def, UInt32.le_iff_toNat_le, Bool.or_eq_true,
      Bool.and_eq_true, decide_eq_true_eq, ge_iff_le] at hc
    rcases hc with ⟨hlow, hhigh⟩ | ⟨hlow, hhigh⟩
    · exact .inr (.inr (.inl ⟨hlow, hhigh⟩))
    · exact .inr (.inl ⟨hlow, hhigh⟩)
  intro c hc
  rw [toList_replyAddress] at hc
  simp only [List.mem_cons, List.mem_append] at hc
  rcases hc with rfl | rfl | hc | rfl | hc
  · decide
  · decide
  · exact hchar c (htoken.chars c hc)
  · decide
  · rcases hdomain c hc with h | rfl | rfl
    · simp [isAddressChar, h]
    · decide
    · decide

theorem SameButCase.chars {a b : String} (h : SameButCase b a)
    (ha : ∀ c ∈ a.toList, isAddressChar c = true) : ∀ c ∈ b.toList, isAddressChar c = true := by
  intro c hc
  have hmem : c.toLower ∈ a.toList.map Char.toLower := by
    rw [← h]
    exact List.mem_map_of_mem hc
  obtain ⟨c', hc', hlower⟩ := List.mem_map.1 hmem
  rw [← isAddressChar_toLower, ← hlower, isAddressChar_toLower]
  exact ha c' hc'

/-! ## Reading an address -/

theorem angled_of_notMem {l : List Char} (h : '<' ∉ l) : angled l = none := by
  induction l with
  | nil => rfl
  | cons c l ih =>
    rw [List.mem_cons, not_or] at h
    unfold angled
    rw [if_neg fun hc => h.1 hc.1.symm]
    exact ih h.2

theorem angled_named {name b : List Char} (hname : '<' ∉ name) (hb : '>' ∉ b) (hne : b ≠ []) :
    angled (name ++ '<' :: b ++ ['>']) = some b := by
  induction name with
  | nil =>
    have hinner : (b ++ ['>']).takeWhile (fun d => d ≠ '>') = b := by
      rw [List.takeWhile_append_of_pos fun c hc => by simpa using fun h : c = '>' => hb (h ▸ hc)]
      simp
    rw [List.nil_append, List.cons_append, angled, hinner]
    exact if_pos ⟨rfl, hne, by simp⟩
  | cons c name ih =>
    rw [List.mem_cons, not_or] at hname
    simp only [List.cons_append, angled]
    rw [if_neg fun hc => hname.1 hc.1.symm]
    simpa using ih hname.2

theorem trim_of_plain {s : String} (h : ∀ c ∈ s.toList, JsString.isSpace c = false) :
    JsString.trim s = s := by
  have hdrop : ∀ l : List Char, (∀ c ∈ l, JsString.isSpace c = false) →
      l.dropWhile JsString.isSpace = l := by
    intro l hl
    cases l with
    | nil => rfl
    | cons c l => rw [List.dropWhile_cons, hl c List.mem_cons_self, if_neg Bool.false_ne_true]
  rw [JsString.trim, hdrop _ h, hdrop _ fun c hc => h c (List.mem_reverse.1 hc), List.reverse_reverse,
    String.ofList_toList]

/-- The address is found in what a mail client wrote, but for its case. -/
theorem extractEmail_written {a addr : String} (ha : ∀ c ∈ a.toList, isAddressChar c = true)
    (hne : a.toList ≠ []) (h : Written a addr) : SameButCase (extractEmail addr) a := by
  cases h with
  | bare h =>
    have hchars := h.chars ha
    have hplain : '<' ∉ addr.toList := fun hc => (isAddressChar_plain (hchars _ hc)).2.2.1 rfl
    rw [extractEmail, angled_of_notMem hplain]
    rw [show (Option.map String.ofList (none : Option (List Char))).getD addr = addr from rfl,
      trim_of_plain fun c hc => (isAddressChar_plain (hchars c hc)).2.1]
    exact h
  | @named name b hname h =>
    have hchars := h.chars ha
    have hplain : '>' ∉ b.toList := fun hc => (isAddressChar_plain (hchars _ hc)).2.2.2 rfl
    have hb : b.toList ≠ [] := by
      intro hb
      rw [SameButCase, hb, List.map_nil] at h
      exact hne (List.map_eq_nil_iff.1 h.symm)
    rw [extractEmail, String.toList_ofList, angled_named hname hplain hb]
    rw [Option.map_some, Option.getD_some, String.ofList_toList,
      trim_of_plain fun c hc => (isAddressChar_plain (hchars c hc)).2.1]
    exact h

/-- What `toLowerCase` makes of a text in ASCII. -/
def LowersAscii (toLowerCase : String → String) : Prop :=
  ∀ s, (∀ c ∈ s.toList, c.toNat < 128) → (toLowerCase s).toList = s.toList.map Char.toLower

theorem toLower_isTokenChar {c : Char} (h : isTokenChar c = true) : c.toLower = c := by
  simp only [isTokenChar, Char.isDigit, Char.le_def, UInt32.le_iff_toNat_le, Bool.or_eq_true,
    Bool.and_eq_true, decide_eq_true_eq, ge_iff_le] at h
  rcases JsString.toLower_cases c with hsame | ⟨hlow, hhigh, -⟩
  · exact hsame
  · have hval : c.val.toNat = c.toNat := rfl
    simp only [hval, UInt32.reduceToNat, Char.reduceVal] at h
    omega

/-- **An answer bears the token.** However a mail client writes the address of a token, the token is read
off it. -/
theorem parseToken_written {toLowerCase : String → String} (hlower : LowersAscii toLowerCase)
    {domain token addr : String} (hdomain : IsDomain domain) (htoken : IsToken token)
    (h : Written (replyAddress domain token) addr) :
    parseToken toLowerCase domain addr = some token := by
  have ha := isAddressChar_replyAddress hdomain htoken
  have hsame := extractEmail_written ha (by simp [toList_replyAddress]) h
  have hascii : ∀ c ∈ (extractEmail addr).toList, c.toNat < 128 :=
    fun c hc => (isAddressChar_plain (hsame.chars ha c hc)).1
  have htokenMap : token.toList.map Char.toLower = token.toList := by
    conv_rhs => rw [← List.map_id token.toList]
    exact List.map_congr_left fun c hc => toLower_isTokenChar (htoken.chars c hc)
  have hemail : (toLowerCase (extractEmail addr)).toList =
      't' :: '-' :: (token.toList ++ '@' :: domain.toList.map Char.toLower) := by
    rw [hlower _ hascii, hsame, toList_replyAddress]
    simp [htokenMap]
  have htake : (token.toList ++ '@' :: domain.toList.map Char.toLower).takeWhile
      (fun c => c.isDigit || ('a' ≤ c && c ≤ 'z')) = token.toList := by
    change List.takeWhile isTokenChar _ = _
    rw [List.takeWhile_append_of_pos htoken.chars]
    simp [isTokenChar]
  have hdomainMap : (domain.toList.map Char.toLower).map Char.toLower =
      domain.toList.map Char.toLower := by
    rw [List.map_map]
    exact List.map_congr_left fun c _ => JsString.toLower_toLower c
  simp only [parseToken, hemail, List.drop_succ_cons, List.drop_zero, htake, List.drop_left,
    List.map_cons, hdomainMap]
  rw [if_pos ⟨by simp, htoken.nonempty, by simp⟩, String.ofList_toList]

/-! ## Threads in a run -/

variable {env : DeskEnv} {s₀ : Desk} {tr : List (Step Desk Call)} {P : Pool Desk Error Unit Call}

/-- The thread is there, with the same customer and token. -/
def Has (id : Uuid) (thread : MailThread) (w : Desk) : Prop :=
  ∃ t, w.mail.threads.lookup id = some t ∧ t.toEmail = thread.toEmail ∧
    t.replyToken = thread.replyToken

theorem ThreadStep.keeps {id : Uuid} {thread : MailThread} {w w' : Desk}
    (h : ThreadStep w.mail w'.mail) (hhas : Has id thread w) : Has id thread w' := by
  obtain ⟨t, ht, hcustomer, htoken⟩ := hhas
  cases h with
  | same h => exact ⟨t, by rw [h, ht], hcustomer, htoken⟩
  | @created id' _ _ hnew _ _ h =>
    have hne : id ≠ id' := by
      rintro rfl
      rw [ht] at hnew
      cases hnew
    exact ⟨t, by rw [h, AList.lookup_insert_ne hne, ht], hcustomer, htoken⟩
  | @changed id' row row' hrow hcustomer' htoken' h =>
    by_cases hid : id = id'
    · subst hid
      obtain rfl := Option.some.inj (ht.symm.trans hrow)
      exact ⟨row', by rw [h, AList.lookup_insert], hcustomer'.trans hcustomer, htoken'.trans htoken⟩
    · exact ⟨t, by rw [h, AList.lookup_insert_ne hid, ht], hcustomer, htoken⟩

/-- The email went to the customer of the thread and asks for answers to its token. -/
structure About (env : Env) (email : EmailMessage) (id : Uuid) (thread : MailThread) (w : Desk) :
    Prop where
  has : Has id thread w
  to_ : email.to_ = thread.toEmail
  replyTo : email.replyTo = replyAddress env.replyDomain thread.replyToken
  token : IsToken thread.replyToken

/-- The tokens are told apart and can be read, and every email is about a thread. -/
structure Sound (env : Env) (w : Desk) : Prop where
  distinct : w.mail.threads.Distinct MailThread.replyToken
  tokens : ∀ id t, w.mail.threads.lookup id = some t → IsToken t.replyToken
  sent : ∀ email ∈ w.sent, ∃ id thread, About env email id thread w

theorem ThreadStep.distinct {s s' : State} (h : ThreadStep s s')
    (hdistinct : s.threads.Distinct MailThread.replyToken) :
    s'.threads.Distinct MailThread.replyToken := by
  cases h with
  | same h => rwa [h]
  | created _ _ hfree h =>
    rw [h]
    exact hdistinct.insert fun id' t _ ht => hfree id' t ht
  | changed hrow _ htoken h =>
    rw [h]
    exact hdistinct.insert fun id' t hne ht heq =>
      hne (hdistinct _ _ t _ ht hrow (heq.trans htoken))

theorem ThreadStep.tokens {s s' : State} (h : ThreadStep s s')
    (htokens : ∀ id t, s.threads.lookup id = some t → IsToken t.replyToken) :
    ∀ id t, s'.threads.lookup id = some t → IsToken t.replyToken := by
  intro id t ht
  cases h with
  | same h => exact htokens id t (h ▸ ht)
  | created _ htoken _ h =>
    rw [h, Table.lookup_insert_ite] at ht
    split at ht
    · obtain rfl := Option.some.inj ht
      exact htoken ▸ isToken_generateToken _
    · exact htokens id t ht
  | changed hrow _ htoken h =>
    rw [h, Table.lookup_insert_ite] at ht
    split at ht
    · obtain rfl := Option.some.inj ht
      exact htoken ▸ htokens _ _ hrow
    · exact htokens id t ht

theorem step_did (hrun : Run (fun _ => handle env) (fun _ => True) s₀ tr P)
    {later earlier : List (Step Desk Call)} {x : Step Desk Call} (hsplit : tr = later ++ x :: earlier) :
    Did env x.call ((x.pre, x.post) :: own x.tid earlier) :=
  (hrun.does fun _ c _ => handle_does env c).1 later x earlier hsplit

/-- What holds of a state and is kept holds from there on. -/
theorem has_since (hrun : Run (fun _ => handle env) (fun _ => True) s₀ tr P) {id : Uuid}
    {thread : MailThread} {later earlier : List (Step Desk Call)} (hsplit : tr = later ++ earlier)
    (hhas : Has id thread (reached s₀ earlier)) : Has id thread P.state := by
  rw [hrun.state_eq]
  refine (hrun.keeps hsplit hhas fun late x mid hx => ?_).2
  have hx' : tr = late ++ x :: (mid ++ earlier) := by
    rw [hsplit, hx]
    simp
  exact (step_did hrun hx').1.keeps

/-- A thread that a call saw is there. -/
theorem has_of_saw (hrun : Run (fun _ => handle env) (fun _ => True) s₀ tr P) {i : ℕ} {id : Uuid}
    {thread : MailThread} (hsaw : Saw (tables (own i tr)) id thread) : Has id thread P.state := by
  obtain ⟨y, hy, hlookup⟩ := hsaw
  obtain ⟨⟨w, w'⟩, hmem, rfl⟩ := List.mem_map.1 hy
  obtain ⟨x, hx, -, rfl, rfl⟩ := mem_own.1 hmem
  obtain ⟨later, earlier, rfl⟩ := List.append_of_mem hx
  exact has_since hrun rfl ⟨thread, hlookup, rfl, rfl⟩

/-- **The tables and the mail go together** in every state that is reached. -/
theorem sound_of_run (hrun : Run (fun _ => handle env) (fun _ => True) s₀ tr P)
    (hthreads : s₀.mail.threads = ∅) (hsent : s₀.sent = []) : Sound env.toEnv P.state := by
  refine hrun.induct (I := fun _ w => Sound env.toEnv w) ?_ ?_
  · have hnone : ∀ id, s₀.mail.threads.lookup id = none := fun id => by
      rw [hthreads, AList.lookup_empty]
    refine ⟨fun id _ t _ ht => ?_, fun id t ht => ?_, fun email he => ?_⟩
    · rw [hnone] at ht
      cases ht
    · rw [hnone] at ht
      cases ht
    · rw [hsent] at he
      cases he
  · intro later x earlier hsplit ih
    obtain ⟨hthread, -, hmail⟩ := step_did hrun hsplit
    refine ⟨hthread.distinct ih.distinct, hthread.tokens ih.tokens, fun email he => ?_⟩
    have hold : ∀ email ∈ x.pre.sent, ∃ id thread, About env.toEnv email id thread x.post := by
      intro email he
      obtain ⟨id, thread, habout⟩ := ih.sent email he
      exact ⟨id, thread, hthread.keeps habout.has, habout.to_, habout.replyTo, habout.token⟩
    cases hmail with
    | same h => exact hold email (h ▸ he)
    | @sent email' id thread hsaw hto hreply h =>
      rw [h, List.mem_cons] at he
      rcases he with rfl | he
      · obtain ⟨P', hrun', hstate⟩ := hrun.before hsplit
        obtain ⟨t, ht, hcustomer, htoken⟩ := hstate ▸ has_of_saw hrun' hsaw
        exact ⟨id, thread, hthread.keeps ⟨t, ht, hcustomer, htoken⟩, hto, hreply,
          htoken ▸ ih.tokens id t ht⟩
      · exact hold email he

/-! ## Answers -/

/-- The first of the addresses that bears a token is that of the email. -/
def AnswersTo (env : Env) (email : EmailMessage) (data : InboundEmail) : Prop :=
  ∃ before addr after, data.to_ ++ data.cc = before ++ addr :: after ∧
    Written email.replyTo addr ∧
    ∀ a ∈ before, parseToken env.toLowerCase env.replyDomain a = none

section Answers

variable (hlower : LowersAscii env.toLowerCase) (hdomain : IsDomain env.replyDomain)
  {email : EmailMessage} {data : InboundEmail} {id : Uuid} {thread : MailThread}

include hlower hdomain

/-- The thread of an answer is found by its token. -/
theorem tokenThread_answer {w : Desk} (hsound : Sound env.toEnv w)
    (habout : About env.toEnv email id thread w) (hanswers : AnswersTo env.toEnv email data) :
    ∃ t, w.mail.threads.lookup id = some t ∧ t.toEmail = email.to_ ∧
      replyAddress env.replyDomain t.replyToken = email.replyTo ∧
      tokenThread env.toEnv (data.to_ ++ data.cc) w.mail = some (id, t) := by
  obtain ⟨before, addr, after, heq, hwritten, hbefore⟩ := hanswers
  obtain ⟨t, ht, hcustomer, htoken⟩ := habout.has
  refine ⟨t, ht, by rw [hcustomer, habout.to_], by rw [htoken, habout.replyTo], ?_⟩
  rw [habout.replyTo] at hwritten
  have hparse := parseToken_written hlower hdomain habout.token hwritten
  have hskip : ∀ l : List String, (∀ a ∈ l, parseToken env.toLowerCase env.replyDomain a = none) →
      ∀ rest, tokenThread env.toEnv (l ++ rest) w.mail = tokenThread env.toEnv rest w.mail := by
    intro l hl rest
    unfold tokenThread
    rw [List.findSome?_append, List.findSome?_eq_none_iff.2, Option.none_or]
    intro a ha
    rw [hl a ha]
    rfl
  rw [heq, hskip before hbefore, tokenThread, List.findSome?_cons, hparse, Option.bind_some,
    Table.findRow_unique ht (by simpa using htoken)]
  intro id' t' ht' hp
  exact hsound.distinct id' id t' t ht' ht ((of_decide_eq_true hp).trans htoken.symm)

/-- Whatever the call saw, the thread that it found is that of the email. -/
theorem found_answer {d : Delivery} {seen : List (State × State)} {found : Uuid}
    (hhas : ∀ y ∈ seen, ∃ t, y.2.threads.lookup id = some t ∧ t.replyToken = thread.replyToken)
    (hdistinct : ∀ y ∈ seen, y.2.threads.Distinct MailThread.replyToken)
    (htoken : IsToken thread.replyToken)
    (hreply : email.replyTo = replyAddress env.replyDomain thread.replyToken)
    (hanswers : AnswersTo env.toEnv email data) (hfound : Found env.toEnv d data seen found) :
    found = id := by
  obtain ⟨before, addr, after, heq, hwritten, hbefore⟩ := hanswers
  rw [hreply] at hwritten
  have hparse := parseToken_written hlower hdomain htoken hwritten
  have hthere : ¬ Missed seen thread.replyToken := by
    rintro ⟨y, hy, hnone⟩
    obtain ⟨t, ht, hsame⟩ := hhas y hy
    exact hnone id t ht hsame
  rcases hfound with ⟨before', addr', after', thread', heq', hparse', ⟨y, hy, hsaw⟩, hmissed⟩ |
    ⟨hmissed, -⟩
  · rw [heq, List.append_eq_append_iff] at heq'
    rcases heq' with ⟨mid, rfl, hrest⟩ | ⟨mid, rfl, hrest⟩
    · cases mid with
      | nil =>
        obtain ⟨rfl, -⟩ := List.cons.inj hrest
        have hsame : thread'.replyToken = thread.replyToken :=
          Option.some.inj (hparse'.symm.trans hparse)
        obtain ⟨t, ht, htsame⟩ := hhas y hy
        exact hdistinct y hy found id thread' t hsaw ht (hsame.trans htsame.symm)
      | cons a mid =>
        -- the address of the email comes before the one that was taken
        obtain ⟨rfl, -⟩ := List.cons.inj hrest
        exact absurd (hmissed addr (by simp) _ hparse) hthere
    · cases mid with
      | nil =>
        obtain ⟨rfl, -⟩ := List.cons.inj hrest
        have hsame : thread'.replyToken = thread.replyToken :=
          Option.some.inj (hparse'.symm.trans hparse)
        obtain ⟨t, ht, htsame⟩ := hhas y hy
        exact hdistinct y hy found id thread' t hsaw ht (hsame.trans htsame.symm)
      | cons a mid =>
        obtain ⟨rfl, -⟩ := List.cons.inj hrest
        rw [hbefore addr' (by simp)] at hparse'
        cases hparse'
  · exact absurd (hmissed addr (by simp [heq]) _ hparse) hthere

end Answers

/-- A step of a thread ends a run in which the thread has begun. -/
theorem run_of_own (hrun : Run (fun _ => handle env) (fun _ => True) s₀ tr P) {i : ℕ}
    {y : Desk × Desk} (hy : y ∈ own i tr) : ∃ tr' P',
      Run (fun _ => handle env) (fun _ => True) s₀ tr' P' ∧
      P'.state = y.2 ∧ ∀ w, begun i tr = some w → begun i tr' = some w := by
  obtain ⟨x, hx, rfl, -, hpost⟩ := mem_own.1 (show (y.1, y.2) ∈ own i tr from hy)
  obtain ⟨later, earlier, rfl⟩ := List.append_of_mem hx
  obtain ⟨P', hrun', hstate⟩ := hrun.upto rfl
  refine ⟨_, P', hrun', hstate.trans hpost, fun w hw => ?_⟩
  obtain ⟨w', hw'⟩ := begun_self x earlier
  rw [begun_append hw'] at hw
  rw [hw', hw]

/-- What an email that had been sent when a call began is about is there from then on. -/
theorem has_of_begun (hrun : Run (fun _ => handle env) (fun _ => True) s₀ tr P) {i : ℕ} {w : Desk}
    (hbegun : begun i tr = some w) {id : Uuid} {thread : MailThread} (hhas : Has id thread w) :
    Has id thread P.state := by
  obtain ⟨later, y, earlier, rfl, -, rfl⟩ := begun_split hbegun
  refine has_since hrun (show later ++ y :: earlier = (later ++ [y]) ++ earlier by simp) ?_
  rwa [← hrun.pre_eq rfl]

theorem sound_of_begun (hrun : Run (fun _ => handle env) (fun _ => True) s₀ tr P)
    (hthreads : s₀.mail.threads = ∅) (hsent : s₀.sent = []) {i : ℕ} {w : Desk}
    (hbegun : begun i tr = some w) : Sound env.toEnv w := by
  obtain ⟨later, y, earlier, hsplit, -, rfl⟩ := begun_split hbegun
  obtain ⟨P', hrun', hstate⟩ := hrun.before hsplit
  exact hstate ▸ sound_of_run hrun' hthreads hsent

/-- **Answers are filed with the one whom the email was sent to.** In every interleaving of the calls of
the mail desk and the events of the webhook, an event that answers an email which had been sent when its
handling began adds its message to a thread with the customer and the reply address of that email, if it
adds one; and in every state that is reached, handling an answer to an email that has been sent does add
it there, whenever the provider has the email. -/
theorem answers_filed (env : DeskEnv) (hlower : LowersAscii env.toLowerCase)
    (hdomain : IsDomain env.replyDomain) (s₀ : Desk) (hthreads : s₀.mail.threads = ∅)
    (hsent : s₀.sent = []) (tr : List (Step Desk Call)) (P : Pool Desk Error Unit Call)
    (hrun : Run (fun _ => handle env) (fun _ => True) s₀ tr P) :
    (∀ later x earlier, tr = later ++ x :: earlier → ∀ data d, x.call = .inbound data d →
      x.post.mail.messages ≠ x.pre.mail.messages → ∀ w email, begun x.tid (x :: earlier) = some w →
      email ∈ w.sent → AnswersTo env.toEnv email data →
      ∃ message thread, x.post.mail.messages = x.pre.mail.messages.insert d.messageId message ∧
        x.post.mail.threads.lookup message.threadId = some thread ∧
        thread.toEmail = email.to_ ∧
        replyAddress env.replyDomain thread.replyToken = email.replyTo) ∧
    ∀ email ∈ P.state.sent, ∀ data d received, AnswersTo env.toEnv email data →
      Fresh data d P.state.mail → env.resend = true → d.receive data.emailId = some (some received) →
      ∃ threadId thread, P.state.mail.threads.lookup threadId = some thread ∧
        thread.toEmail = email.to_ ∧
        replyAddress env.replyDomain thread.replyToken = email.replyTo ∧
        ((handleInbound env.toEnv data d).run P.state.mail).2.messages =
          P.state.mail.messages.insert d.messageId
            (messageOf env.toEnv d data received threadId thread) := by
  refine ⟨fun later x earlier hsplit data d hcall hadds w email hbegun hemail hanswers => ?_,
    fun email hemail data d received hanswers hfresh hresend hreceive => ?_⟩
  · obtain ⟨P', hrun', hstate⟩ := hrun.upto (show tr = later ++ (x :: earlier) from hsplit)
    obtain ⟨P₁, hrun₁, -⟩ := hrun.before hsplit
    obtain ⟨id, thread, habout⟩ := (sound_of_begun hrun' hthreads hsent hbegun).sent email hemail
    obtain ⟨-, hmessage, -⟩ := step_did hrun hsplit
    rw [hcall] at hmessage
    generalize hseen : tables (own x.tid earlier) = seen at hmessage
    cases hmessage with
    | same h => exact absurd h hadds
    | sent hc _ => exact absurd rfl (hc data d)
    | @filed _ _ _ _ _ message hfound h =>
      -- the steps of the call, and the states that they left
      have hown : ∀ y ∈ seen, ∃ tr' P', Run (fun _ => handle env) (fun _ => True) s₀ tr' P' ∧
          P'.state.mail = y.2 ∧ begun x.tid tr' = some w := by
        intro y hy
        rw [← hseen] at hy
        obtain ⟨z, hz, rfl⟩ := List.mem_map.1 hy
        obtain ⟨tr', P₂, hrun₂, hstate₂, hw⟩ := run_of_own hrun'
          (show z ∈ own x.tid (x :: earlier) by rw [own_cons_self]; exact List.mem_cons_of_mem _ hz)
        exact ⟨tr', P₂, hrun₂, congrArg Desk.mail hstate₂, hw w hbegun⟩
      have hid : message.threadId = id := by
        refine found_answer hlower hdomain ?_ ?_ habout.token habout.replyTo hanswers hfound
        · intro y hy
          obtain ⟨tr', P₂, hrun₂, hstate₂, hw⟩ := hown y hy
          obtain ⟨t, ht, -, htoken⟩ := has_of_begun hrun₂ hw habout.has
          exact ⟨t, hstate₂ ▸ ht, htoken⟩
        · intro y hy
          obtain ⟨tr', P₂, hrun₂, hstate₂, hw⟩ := hown y hy
          exact hstate₂ ▸ (sound_of_run hrun₂ hthreads hsent).distinct
      obtain ⟨t, ht, hcustomer, htoken⟩ := has_of_begun hrun' hbegun habout.has
      rw [hstate] at ht
      exact ⟨message, t, h, hid ▸ ht, by rw [hcustomer, habout.to_], by rw [htoken, habout.replyTo]⟩
  · have hsound := sound_of_run hrun hthreads hsent
    obtain ⟨id, thread, habout⟩ := hsound.sent email hemail
    obtain ⟨t, ht, hcustomer, hreply, htoken⟩ := tokenThread_answer hlower hdomain hsound habout hanswers
    have htarget : target env.toEnv data d P.state.mail = some (received, id, t) := by
      rw [target, if_pos hresend, hreceive, htoken]
      rfl
    have hfiles := @handleInbound_ensures env.toEnv data d _ hfresh
    unfold Ensures at hfiles
    rw [htarget] at hfiles
    exact ⟨id, t, ht, hcustomer, hreply, hfiles.messages⟩

/-! ### An email and its answer -/

/-- Lower case for ASCII, and texts that are sanitized as they are. -/
def sampleDeskEnv : DeskEnv where
  resend := true
  replyDomain := "secure-access.site"
  toLowerCase s := String.ofList (s.toList.map Char.toLower)
  sanitizeMailHtml html := html
  htmlToText html := html
  processEnv _ := none
  wrapPlainEmail _ _ bodyHtml _ := bodyHtml

def emptyDesk : Desk := ⟨⟨∅, ∅, ∅, [], []⟩, []⟩

def sampleCompose : Call :=
  .compose ⟨.customerCare, " Ann@example.com", "Welcome", none, "<p>Hello</p>", none, []⟩
    ⟨1, fun _ => 0xA0⟩ ⟨100, 2, fun _ => 3, fun _ => some "email_1"⟩

def sampleComposed : List (Step Desk Call) × Pool Desk Error Unit Call :=
  exec (fun _ => handle sampleDeskEnv) emptyDesk (.call sampleCompose :: List.replicate 5 (.step 0))

/-- Ann writes to the address, in another case and behind a name. -/
def sampleAnswer : InboundEmail where
  emailId := "received_1"
  from_ := "Ann <ann@example.com>"
  to_ := [String.ofList ("Care ".toList ++
    '<' :: "T-A0A0A0A0A0A0A0A0A0A0A0A0@Secure-Access.site".toList ++ ['>'])]
  cc := []
  subject := "Re: Welcome"
  messageId := "<1@example.com>"
  attachments := []

def sampleReceived : ReceivedEmail := ⟨some "<p>Hi</p>", none, none, none⟩

def sampleAnswered : Delivery :=
  ⟨200, 4, fun _ => 5, fun _ => some (some sampleReceived), fun _ _ => none, fun _ => none,
    fun _ => true⟩

/-- The email of the sample. -/
def sampleSent : EmailMessage where
  to_ := "ann@example.com"
  from_ := "State Bank — Customer Care <care@secure-access.site>"
  replyTo := "t-a0a0a0a0a0a0a0a0a0a0a0a0@secure-access.site"
  subject := "Welcome"
  html := "<p>Hello</p>"
  text := "<p>Hello</p>"
  headers := []
  attachments := []

theorem answers_filed_sample : ∃ threadId thread,
    sampleComposed.2.state.mail.threads.lookup threadId = some thread ∧
      thread.toEmail = "ann@example.com" ∧
      replyAddress "secure-access.site" thread.replyToken =
        "t-a0a0a0a0a0a0a0a0a0a0a0a0@secure-access.site" ∧
      ((handleInbound sampleDeskEnv.toEnv sampleAnswer sampleAnswered).run
          sampleComposed.2.state.mail).2.messages =
        sampleComposed.2.state.mail.messages.insert 4
          (messageOf sampleDeskEnv.toEnv sampleAnswered sampleAnswer sampleReceived threadId thread) :=
  (answers_filed sampleDeskEnv (fun _ _ => String.toList_ofList) (by decide +kernel) emptyDesk rfl rfl
    sampleComposed.1 sampleComposed.2 (exec_run _ fun _ _ => trivial)).2 sampleSent
    (by decide +kernel) sampleAnswer sampleAnswered sampleReceived
    ⟨[], _, [], rfl, .named (by decide +kernel) (by decide +kernel), by simp⟩
    ⟨by decide +kernel, by simp [rowsFrom, sampleAnswer], by simp [rowsFrom, sampleAnswer]⟩ rfl rfl

end BankDemo.Mail
