import BankDemo.Auth.DeviceRules

/-!
# The device that is trusted

A challenge keeps the fingerprint that `login` has computed, and `mfaVerify` does not read it: it
computes another, from what its own request tells, and trusts the device with that one. The time zone
is read from the body in the one and from a header in the other, and the canvas hash only in the first.

* `row_kept`: as long as a device is in the table it keeps its user and its fingerprint, and stays
  trusted and unrevoked.
* `challenged_device_trusted`: the device that `mfaVerify` trusts is the one that was challenged exactly
  if what the two requests tell digests to the same. With a canvas hash, the next login is challenged
  again (`challenged_again`).
-/

namespace BankDemo.Devices

open Crypto Identity

/-! ## What is to be -/

/-- The user and the fingerprint of a device, which are unique. -/
def ownerAndPrint (row : Device) : Uuid × String := (row.userId, row.fingerprint)

/-- A login of the user from the client with these inputs is not challenged. -/
def SkipsChallenge (env : Env) (client : Client) (dto : LoginDto) (userId : Uuid) (s : Lobby) : Prop :=
  ∀ now d user, s.realm.db.users.findRow (fun u => env.sameEmail u.email (JsString.trim dto.email)) =
      some (userId, user) →
    ∀ token, ((login env now client dto d).run s).1 ≠ .ok (.mfa token)

/-- The device is the one of the fingerprint, and lets its user in. -/
structure Recognized (env : Env) (client : Client) (dto : LoginDto) (pending : String)
    (userId id : Uuid) (s : Lobby) : Prop where
  found : ∃ row, findKnown userId pending s.realm.db = some (id, row) ∧ row.trusted = true ∧
    row.revokedAt = none
  skips : SkipsChallenge env client dto userId s

/-- The thread, which signed in with a session, has trusted the device of the fingerprint, and no other:
from that step on the device is recognized wherever it is in the table. -/
structure TrustsPending (env : Env) (client : Client) (dto : LoginDto) (pending : String) (j : ℕ)
    (session : Identity.Session) (tr : List (Step Lobby Call)) : Prop where
  recognized : ∃ later x earlier, tr = later ++ x :: earlier ∧ x.tid = j ∧
    (x.post.devices.lookup session.deviceId).isSome ∧
    ∀ y ∈ later ++ [x], (y.post.devices.lookup session.deviceId).isSome →
      Recognized env client dto pending session.userId session.deviceId y.post
  only : ∀ x ∈ tr, x.tid = j → ∀ id row, x.post.devices.lookup id = some row → row.trusted = true →
    (∀ old, x.pre.devices.lookup id = some old → old.trusted = false) → row.fingerprint = pending

/-- What a request tells of its device. -/
def clientText (userAgent acceptLanguage timezone canvasHash : Option String) : String :=
  userAgent.getD "" ++ "|" ++ acceptLanguage.getD "" ++ "|" ++ timezone.getD "" ++ "|" ++
    canvasHash.getD ""

/-- What the headers of the second request tell digests to the same as what the headers and the body of
the first do. -/
def Agree (env : Env) (client : Client) (dto : LoginDto) (client' : Client) : Prop :=
  env.sha256 (.other (clientText client'.userAgent client'.acceptLanguage client'.xTimezone none)) =
    env.sha256 (.other (clientText client.userAgent client.acceptLanguage dto.timezone dto.canvasHash))

instance (env : Env) (client : Client) (dto : LoginDto) (client' : Client) :
    Decidable (Agree env client dto client') :=
  inferInstanceAs (Decidable (_ = _))

theorem agree_iff {env : Env} {client : Client} {dto : LoginDto} {client' : Client} :
    Agree env client dto client' ↔
      fingerprint env (readClientCtx client') = fingerprint env (loginCtx client dto) :=
  Iff.rfl

/-- The ids that calls draw are different, and those for devices are not in use. -/
structure Fresh (s₀ : Lobby) (P : Pool Lobby Error Answer Call) : Prop where
  devices : (P.threads.filterMap fun t => t.call.deviceId).Nodup
  challenges : (P.threads.filterMap fun t => t.call.challengeId).Nodup
  unused : ∀ t ∈ P.threads, ∀ id ∈ t.call.deviceId, s₀.devices.lookup id = none

/-! ## One step -/

/-- What a device is later, while it is in the table. -/
structure Grown (row row' : Device) : Prop where
  owner : row'.userId = row.userId
  print : row'.fingerprint = row.fingerprint
  trusted : row.trusted = true → row'.trusted = true
  unrevoked : row.revokedAt = none → row'.revokedAt = none

theorem Grown.refl (row : Device) : Grown row row := ⟨rfl, rfl, fun h => h, fun h => h⟩

theorem Grown.trans {row₁ row₂ row₃ : Device} (h : Grown row₁ row₂) (h' : Grown row₂ row₃) :
    Grown row₁ row₃ :=
  ⟨h'.owner.trans h.owner, h'.print.trans h.print, fun ht => h'.trusted (h.trusted ht),
    fun hr => h'.unrevoked (h.unrevoked hr)⟩

section Moves

variable {new : Option Uuid} {fp : Option String} {w w' : Realm} {own : List (Realm × Realm)}
  {id : Uuid} {row row' : Device}

/-- A device is the one that was put in, or was there. -/
theorem withDevice_cases {k : Uuid} {put : Device}
    (hrow' : (withDevice w k put).db.devices.lookup id = some row') :
    (id = k ∧ row' = put) ∨ w.db.devices.lookup id = some row' := by
  simp only [withDevice, Table.lookup_insert_ite] at hrow'
  split at hrow'
  · rename_i hid
    exact .inl ⟨hid, (Option.some.inj hrow').symm⟩
  · exact .inr hrow'

theorem purged_cases {userId : Uuid}
    (h : w'.db.devices = w.db.devices.deleteMany fun _ d => d.userId = userId)
    (hrow' : w'.db.devices.lookup id = some row') : w.db.devices.lookup id = some row' := by
  rw [h] at hrow'
  exact (Table.lookup_deleteMany.1 hrow').1

theorem Moved.grown (h : Moved new fp ((w, w') :: own)) (hrow : w.db.devices.lookup id = some row)
    (hrow' : w'.db.devices.lookup id = some row') : Grown row row' := by
  have hsame : w.db.devices.lookup id = some row' → Grown row row' := by
    intro hkept
    obtain rfl := Option.some.inj (hrow.symm.trans hkept)
    exact .refl row
  cases h with
  | still h => exact hsame (h ▸ hrow')
  | renewed hold =>
    rcases withDevice_cases hrow' with ⟨rfl, rfl⟩ | hkept
    · obtain rfl := Option.some.inj (hrow.symm.trans hold)
      exact ⟨rfl, rfl, fun h => h, fun _ => rfl⟩
    · exact hsame hkept
  | added hnew hfp hnone hfree hfirst =>
    rcases withDevice_cases hrow' with ⟨rfl, -⟩ | hkept
    · rw [hnone] at hrow
      cases hrow
    · exact hsame hkept
  | trusted hfp hold hup =>
    rcases withDevice_cases hrow' with ⟨rfl, rfl⟩ | hkept
    · obtain rfl := Option.some.inj (hrow.symm.trans hold)
      exact ⟨rfl, rfl, fun _ => rfl, fun h => h⟩
    · exact hsame hkept
  | purged userId h => exact hsame (purged_cases h hrow')

/-- A device appears under the id that the call has drawn, and the call has added none before. -/
theorem Moved.appears (h : Moved new fp ((w, w') :: own)) (hnone : w.db.devices.lookup id = none)
    (hrow' : w'.db.devices.lookup id = some row') : new = some id ∧ Unmoved own := by
  have hthere : ¬ w.db.devices.lookup id = some row' := by simp [hnone]
  cases h with
  | still h => exact absurd (h ▸ hrow') hthere
  | renewed hold =>
    rcases withDevice_cases hrow' with ⟨rfl, -⟩ | hkept
    · rw [hnone] at hold
      cases hold
    · exact absurd hkept hthere
  | added hnew hfp hnone' hfree hfirst =>
    rcases withDevice_cases hrow' with ⟨rfl, -⟩ | hkept
    · exact ⟨hnew, hfirst⟩
    · exact absurd hkept hthere
  | trusted hfp hold hup =>
    rcases withDevice_cases hrow' with ⟨rfl, -⟩ | hkept
    · rw [hnone] at hold
      cases hold
    · exact absurd hkept hthere
  | purged userId h => exact absurd (purged_cases h hrow') hthere

/-- The database's unique index. -/
theorem Moved.distinct (h : Moved new fp ((w, w') :: own))
    (hdistinct : w.db.devices.Distinct ownerAndPrint) : w'.db.devices.Distinct ownerAndPrint := by
  have hput : ∀ {k : Uuid} {old put : Device}, w.db.devices.lookup k = some old →
      ownerAndPrint put = ownerAndPrint old →
      (withDevice w k put).db.devices.Distinct ownerAndPrint := by
    intro k old put hold heq
    refine hdistinct.insert fun k' r' hne hr' hsame => hne ?_
    exact hdistinct k' k r' old hr' hold (hsame.trans heq)
  cases h with
  | still h =>
    rw [h]
    exact hdistinct
  | renewed hold => exact hput hold rfl
  | added hnew hfp hnone hfree hfirst =>
    refine hdistinct.insert fun k' r' _ hr' hsame => ?_
    obtain ⟨huser, hprint⟩ := Prod.mk.inj hsame
    exact hfree k' r' hr' huser hprint
  | trusted hfp hold hup => exact hput hold rfl
  | purged userId h => exact hdistinct.subset fun k r hr => purged_cases h hr

/-- A device becomes trusted once the call has found it, or added it, for its fingerprint. -/
theorem Moved.trusts (h : Moved new fp ((w, w') :: own)) (hrow' : w'.db.devices.lookup id = some row')
    (htrusted : row'.trusted = true)
    (hbefore : ∀ old, w.db.devices.lookup id = some old → old.trusted = false) :
    ∃ userId f old, fp = some f ∧ w.db.devices.lookup id = some old ∧
      row'.fingerprint = old.fingerprint ∧ Upserted userId f id own := by
  have hnot : ∀ old, w.db.devices.lookup id = some old → old.trusted = row'.trusted → False := by
    intro old hold heq
    rw [hbefore old hold, htrusted] at heq
    cases heq
  cases h with
  | still h => exact (hnot row' (h ▸ hrow') rfl).elim
  | renewed hold =>
    rcases withDevice_cases hrow' with ⟨rfl, rfl⟩ | hkept
    · exact (hnot _ hold rfl).elim
    · exact (hnot row' hkept rfl).elim
  | added hnew hfp hnone hfree hfirst =>
    rcases withDevice_cases hrow' with ⟨rfl, rfl⟩ | hkept
    · cases htrusted
    · exact (hnot row' hkept rfl).elim
  | @trusted _ _ k userId f old hfp hold hup =>
    rcases withDevice_cases hrow' with ⟨rfl, rfl⟩ | hkept
    · exact ⟨userId, f, old, hfp, hold, rfl, hup⟩
    · exact (hnot row' hkept rfl).elim
  | purged userId h => exact (hnot row' (purged_cases h hrow') rfl).elim

end Moves

/-! ## The next login -/

section Next

variable {env : Env} {client : Client} {dto : LoginDto} {userId id : Uuid} {row : Device}

/-- The device of a user with a fingerprint is the one that is found. -/
theorem findKnown_of_distinct {db : Identity.Db} {f : String}
    (hdistinct : db.devices.Distinct ownerAndPrint) (hrow : db.devices.lookup id = some row)
    (huser : row.userId = userId) (hprint : row.fingerprint = f) :
    findKnown userId f db = some (id, row) := by
  refine Table.findRow_unique hrow (decide_eq_true ⟨huser, hprint⟩) fun k r hr hmatch => ?_
  obtain ⟨hruser, hrprint⟩ := of_decide_eq_true hmatch
  exact hdistinct k id r row hr hrow
    (Prod.ext (hruser.trans huser.symm) (hrprint.trans hprint.symm))

/-- A user with a known device that is trusted is not asked for a code. -/
theorem recognize_known {now : Instant} {email password fp : String} {d : SignInDraws} {w : Realm}
    {user : Identity.User}
    (huser : w.db.users.findRow (fun u => env.sameEmail u.email (JsString.trim email)) =
      some (userId, user)) (hknown : findKnown userId fp w.db = some (id, row))
    (htrusted : row.trusted = true) (hrevoked : row.revokedAt = none) :
    (recognize env now email password fp d).Ensures w fun r _ => ∀ u, r ≠ .ok (.inr u) := by
  refine Prog.ensures_read_bind ?_
  dsimp only
  rw [huser]
  dsimp only
  split
  · exact Prog.ensures_throw fun u h => by cases h
  · split
    · exact Prog.ensures_throw fun u h => by cases h
    · refine Prog.ensures_read_bind ?_
      rw [hknown, if_pos (by simp [htrusted, hrevoked])]
      refine Prog.ensures_last (fun deviceId w' => ?_) fun e u h => by cases h
      refine Prog.ensures_last (fun issued w' => ?_) fun e u h => by cases h
      exact Prog.ensures_pure fun u h => by cases h

theorem skips_of_known {s : Lobby}
    (hknown : findKnown userId (fingerprint env (loginCtx client dto)) s.realm.db = some (id, row))
    (htrusted : row.trusted = true) (hrevoked : row.revokedAt = none) :
    SkipsChallenge env client dto userId s := by
  intro now d user huser token
  have hrecognize : (recognize env now dto.email dto.password (fingerprint env (loginCtx client dto))
      d).Ensures s.realm fun r _ => ∀ u, r ≠ .ok (.inr u) :=
    recognize_known huser hknown htrusted hrevoked
  have hlogin : (login env now client dto d).Ensures s fun r _ => r ≠ .ok (.mfa token) := by
    refine Prog.ensures_bind (Prog.ensures_zoom (hrecognize.imp fun r w hr => ?_))
    cases r with
    | error e => exact fun h => by cases h
    | ok found =>
      cases found with
      | inl issued => exact Prog.ensures_pure fun h => by cases h
      | inr u => exact absurd rfl (hr u)
  exact hlogin

end Next

/-! ## Runs -/

section Runs

variable {env : Env} {s₀ : Lobby} {tr : List (Step Lobby Call)} {P : Pool Lobby Error Answer Call}

/-- A call that drew an id took all the steps of the calls that drew it. -/
theorem Fresh.tid_eq {draws : Call → Option Uuid}
    (honce : (P.threads.filterMap fun t => draws t.call).Nodup) (hrun : LobbyRun env s₀ tr P)
    {x y : Step Lobby Call} (hx : x ∈ tr) (hy : y ∈ tr) {id : Uuid} (hid : draws x.call = some id)
    (hid' : draws y.call = some id) : x.tid = y.tid := by
  obtain ⟨t, ht, hcall⟩ := hrun.thread_of_step hx
  obtain ⟨t', ht', hcall'⟩ := hrun.thread_of_step hy
  rw [← hcall] at hid
  rw [← hcall'] at hid'
  exact place_eq (List.pairwise_filterMap.1 honce) ht ht' (fun h => h id hid id hid' rfl)
    fun h => h id hid' id hid rfl

/-- The devices are distinct all along. -/
theorem distinct_of_run (hrun : LobbyRun env s₀ tr P)
    (hstart : s₀.devices.Distinct ownerAndPrint) :
    ∀ y ∈ tr, y.post.devices.Distinct ownerAndPrint := by
  have hall := hrun.induct (I := fun tr s => s.devices.Distinct ownerAndPrint ∧
    ∀ y ∈ tr, y.post.devices.Distinct ownerAndPrint) ⟨hstart, by simp⟩ ?_
  · exact hall.2
  · rintro later x earlier hsplit ⟨hpre, hearlier⟩
    have hpost := (did_of_run hrun hsplit).moved.distinct hpre
    exact ⟨hpost, List.forall_mem_cons.2 ⟨hpost, hearlier⟩⟩

theorem mem_realms {i : ℕ} {w w' : Realm} (h : (w, w') ∈ realms (own i tr)) :
    ∃ z ∈ tr, z.tid = i ∧ z.pre.realm = w ∧ z.post.realm = w' := by
  obtain ⟨⟨s, s'⟩, hown, heq⟩ := List.mem_map.1 h
  obtain ⟨rfl, rfl⟩ := Prod.mk.inj heq
  obtain ⟨z, hz, htid, rfl, rfl⟩ := mem_own.1 hown
  exact ⟨z, hz, htid, rfl, rfl⟩

/-- A device appears at most once under an id. -/
theorem appears_once (hrun : LobbyRun env s₀ tr P) (hfresh : Fresh s₀ P) (id : Uuid) :
    AtMostOnce (Appears fun s : Lobby => s.devices.lookup id) tr := by
  refine hrun.induct (I := fun tr _ => AtMostOnce (Appears fun s : Lobby => s.devices.lookup id) tr)
    List.Pairwise.nil fun later x earlier hsplit ih => ih.cons fun hx y hy hyappears => ?_
  have hmoved := (did_of_run hrun hsplit).moved
  obtain ⟨row, hrow⟩ := Option.isSome_iff_exists.1 hx.2
  obtain ⟨hnew, hunmoved⟩ := hmoved.appears hx.1 hrow
  obtain ⟨late, early, rfl⟩ := List.append_of_mem hy
  have hsplity : tr = (later ++ x :: late) ++ y :: early := by
    rw [hsplit]
    simp
  obtain ⟨row', hrow'⟩ := Option.isSome_iff_exists.1 hyappears.2
  obtain ⟨hnew', -⟩ := (did_of_run hrun hsplity).moved.appears hyappears.1 hrow'
  -- both steps are of one thread, which has not touched the devices before
  have htid : x.tid = y.tid := Fresh.tid_eq hfresh.devices hrun (by simp [hsplit])
    (by simp [hsplit]) hnew hnew'
  have hmem : (y.pre.realm, y.post.realm) ∈ realms (own x.tid (late ++ y :: early)) :=
    List.mem_map.2 ⟨(y.pre, y.post), mem_own.2 ⟨y, hy, htid.symm, rfl, rfl⟩, rfl⟩
  have hsame : y.post.devices = y.pre.devices := hunmoved _ hmem
  have hnone : y.pre.devices.lookup id = none := hyappears.1
  have hthere : y.post.devices.lookup id = some row' := hrow'
  rw [hsame, hnone] at hthere
  cases hthere

/-- **A device is what it was**, as long as it is in the table: no other comes under its id. -/
theorem row_kept (hrun : LobbyRun env s₀ tr P) (hfresh : Fresh s₀ P)
    {late mid earlier : List (Step Lobby Call)} (hsplit : tr = late ++ (mid ++ earlier)) {id : Uuid}
    {row row' : Device} (hrow : (reached s₀ earlier).devices.lookup id = some row)
    (hrow' : (reached s₀ (mid ++ earlier)).devices.lookup id = some row') : Grown row row' := by
  refine hrun.stable (v := fun s : Lobby => s.devices.lookup id) (R := Grown) Grown.refl Grown.trans
    (fun x hx b b' hb hb' => ?_) (appears_once hrun hfresh id) (fun hthere x hx happears => ?_)
    hsplit hrow hrow'
  · obtain ⟨later, earlier, hsplit⟩ := List.append_of_mem hx
    exact (did_of_run hrun hsplit).moved.grown hb hb'
  · obtain ⟨later, earlier, hsplit⟩ := List.append_of_mem hx
    obtain ⟨b, hb⟩ := Option.isSome_iff_exists.1 happears.2
    obtain ⟨hnew, -⟩ := (did_of_run hrun hsplit).moved.appears happears.1 hb
    obtain ⟨t, ht, hcall⟩ := hrun.thread_of_step hx
    have hunused := hfresh.unused t (List.mem_of_getElem? ht) id (hcall ▸ hnew)
    rw [hunused] at hthere
    cases hthere

/-- Since a step before. -/
theorem row_since (hrun : LobbyRun env s₀ tr P) (hfresh : Fresh s₀ P)
    {later earlier : List (Step Lobby Call)} {x z : Step Lobby Call}
    (hsplit : tr = later ++ x :: earlier) (hz : z ∈ earlier) {id : Uuid} {row row' : Device}
    (hrow : z.post.devices.lookup id = some row) (hrow' : x.pre.devices.lookup id = some row') :
    Grown row row' := by
  obtain ⟨mid, early, rfl⟩ := List.append_of_mem hz
  rw [hrun.pre_eq hsplit] at hrow'
  have hparts : tr = (later ++ [x]) ++ (mid ++ z :: early) := by
    rw [hsplit]
    simp
  exact row_kept hrun hfresh hparts hrow hrow'

/-- From a step on. -/
theorem row_after (hrun : LobbyRun env s₀ tr P) (hfresh : Fresh s₀ P)
    {later earlier : List (Step Lobby Call)} {x y : Step Lobby Call}
    (hsplit : tr = later ++ x :: earlier) (hy : y ∈ later ++ [x]) {id : Uuid} {row row' : Device}
    (hrow : x.post.devices.lookup id = some row) (hrow' : y.post.devices.lookup id = some row') :
    Grown row row' := by
  rcases List.mem_append.1 hy with hlater | hx
  · obtain ⟨late, mid, rfl⟩ := List.append_of_mem hlater
    have hparts : tr = late ++ ((y :: mid) ++ (x :: earlier)) := by
      rw [hsplit]
      simp
    exact row_kept hrun hfresh hparts hrow hrow'
  · obtain rfl := List.mem_singleton.1 hx
    obtain rfl := Option.some.inj (hrow.symm.trans hrow')
    exact .refl row

/-- A device that a thread has found or added for a fingerprint still has it. -/
theorem upserted_row (hrun : LobbyRun env s₀ tr P) (hfresh : Fresh s₀ P)
    {later earlier : List (Step Lobby Call)} {x : Step Lobby Call}
    (hsplit : tr = later ++ x :: earlier) {userId id : Uuid} {f : String}
    (hup : Upserted userId f id (realms (own x.tid earlier))) {row : Device}
    (hrow : x.pre.devices.lookup id = some row) :
    row.userId = userId ∧ row.fingerprint = f ∧ row.revokedAt = none := by
  obtain ⟨⟨⟨w, w'⟩, hfound, old, hold, huser, hprint⟩, ⟨v, v'⟩, hrenewed, old', hold', hrevoked⟩ := hup
  obtain ⟨z, hz, -, -, rfl⟩ := mem_realms hfound
  obtain ⟨z', hz', -, -, rfl⟩ := mem_realms hrenewed
  have hgrown := row_since hrun hfresh hsplit hz hold hrow
  have hgrown' := row_since hrun hfresh hsplit hz' hold' hrow
  exact ⟨hgrown.owner.trans huser, hgrown.print.trans hprint, hgrown'.unrevoked hrevoked⟩

/-- Where a thread has marked a device. -/
theorem marked_step (hrun : LobbyRun env s₀ tr P) (hfresh : Fresh s₀ P) {i : ℕ} {userId id : Uuid}
    {f : String} (hmarked : Marked userId f id (realms (own i tr))) :
    ∃ later x earlier row, tr = later ++ x :: earlier ∧ x.tid = i ∧
      x.post.devices.lookup id = some row ∧ row.userId = userId ∧ row.fingerprint = f ∧
      row.trusted = true ∧ row.revokedAt = none := by
  obtain ⟨late, w, row, before, hown, hrow, hup⟩ := hmarked
  obtain ⟨l₁, l₂, hl, -, hl₂⟩ := List.map_eq_append_iff.1 hown
  obtain ⟨y, l₃, rfl, hy, rfl⟩ := List.map_eq_cons_iff.1 hl₂
  obtain ⟨later, x, earlier, hsplit, rfl, rfl, -, rfl⟩ := own_eq_append hl
  obtain ⟨hpre, hpost⟩ := Prod.mk.inj hy
  change x.pre.realm = w at hpre
  change x.post.realm = _ at hpost
  subst hpre
  obtain ⟨huser, hprint, hrevoked⟩ := upserted_row hrun hfresh hsplit hup hrow
  refine ⟨later, x, earlier, { row with trusted := true }, hsplit, rfl, ?_, huser, hprint, rfl,
    hrevoked⟩
  have hput := lookup_withDevice x.pre.realm id { row with trusted := true }
  rw [← hpost] at hput
  exact hput

/-- The fingerprint that a `login` left with its challenge stays there. -/
theorem pending_of_login (hrun : LobbyRun env s₀ tr P) (hfresh : Fresh s₀ P) {i : ℕ} {now : Instant}
    {client : Client} {dto : LoginDto} {d : SignInDraws} {token : Token}
    (hlogin : P.Returned i (.login now client dto d) (.outcome (.mfa token))) :
    P.state.pendingDeviceFingerprint.lookup d.challenge.id =
      some (fingerprint env (loginCtx client dto)) := by
  obtain ⟨s, s', before, hown, hstored⟩ := vow_of_run hrun hlogin
  have hlast : own i tr = [] ++ (s, s') :: before := hown
  obtain ⟨later, x, earlier, hsplit, htid, heq, hlater, -⟩ := own_eq_append hlast
  obtain ⟨rfl, rfl⟩ := Prod.mk.inj heq
  have hsplit' : tr = later ++ (x :: earlier) := hsplit
  have hkeeps := hrun.keeps (I := fun s => s.pendingDeviceFingerprint.lookup d.challenge.id =
    some (fingerprint env (loginCtx client dto))) hsplit' hstored fun late y mid hy hpre => ?_
  · rw [hrun.state_eq]
    exact hkeeps.2
  · have hsplity : tr = late ++ y :: (mid ++ x :: earlier) := by
      rw [hsplit, hy]
      simp
    rcases (did_of_run hrun hsplity).stored _ _ _ rfl with hsame | ⟨id, fp, hid, -, hput⟩
    · rw [hsame]
      exact hpre
    · rw [hput, Table.lookup_insert_ite, if_neg, hpre]
      rintro rfl
      -- only the thread of the `login` stores under this id, and it took no further step
      have hx : x ∈ tr := by simp [hsplit]
      obtain ⟨t, ht, hcall⟩ := hrun.thread_of_step hx
      rw [htid, hlogin.thread] at ht
      obtain rfl := Option.some.inj ht
      have hdrawn : x.call.challengeId = some d.challenge.id := by
        rw [← hcall]
        rfl
      have hsame := Fresh.tid_eq hfresh.challenges hrun hx (by simp [hsplity]) hdrawn hid
      have hmem : (y.pre, y.post) ∈ own i later :=
        mem_own.2 ⟨y, by simp [hy], hsame.symm.trans htid, rfl, rfl⟩
      rw [hlater] at hmem
      cases hmem

/-- A thread that has marked a device for the fingerprint of the challenge has done all that is asked. -/
theorem trustsPending_of_agree (hrun : LobbyRun env s₀ tr P)
    (hstart : s₀.devices.Distinct ownerAndPrint) (hfresh : Fresh s₀ P) {client : Client}
    {dto : LoginDto} {j : ℕ} {c : Call} {session : Identity.Session}
    (hcalls : ∀ x ∈ tr, x.tid = j → x.call = c)
    (hprint : c.fingerprint env = some (fingerprint env (loginCtx client dto)))
    (hmarked : Marked session.userId (fingerprint env (loginCtx client dto)) session.deviceId
      (realms (own j tr))) :
    TrustsPending env client dto (fingerprint env (loginCtx client dto)) j session tr := by
  refine ⟨?_, fun x hx htid id row hrow htrusted hbefore => ?_⟩
  · obtain ⟨later, x, earlier, row, hsplit, htid, hrow, huser, hfp, htrusted, hrevoked⟩ :=
      marked_step hrun hfresh hmarked
    refine ⟨later, x, earlier, hsplit, htid, by rw [hrow]; rfl, fun y hy hthere => ?_⟩
    obtain ⟨row', hrow'⟩ := Option.isSome_iff_exists.1 hthere
    have hgrown := row_after hrun hfresh hsplit hy hrow hrow'
    have hmem : y ∈ tr := by
      rw [hsplit, List.append_cons]
      exact List.mem_append_left _ hy
    have hdistinct := distinct_of_run hrun hstart y hmem
    have hknown := findKnown_of_distinct hdistinct hrow' (hgrown.owner.trans huser)
      (hgrown.print.trans hfp)
    exact ⟨⟨row', hknown, hgrown.trusted htrusted, hgrown.unrevoked hrevoked⟩,
      skips_of_known hknown (hgrown.trusted htrusted) (hgrown.unrevoked hrevoked)⟩
  · obtain ⟨later, earlier, hsplit⟩ := List.append_of_mem hx
    obtain ⟨userId, f, old, hf, hold, hsame, hup⟩ :=
      (did_of_run hrun hsplit).moved.trusts hrow htrusted hbefore
    rw [hcalls x hx htid, hprint] at hf
    obtain rfl := Option.some.inj hf
    exact hsame.trans (upserted_row hrun hfresh hsplit hup hold).2.1

/-- Two steps of a run that left a device left it with the same fingerprint. -/
theorem print_eq (hrun : LobbyRun env s₀ tr P) (hfresh : Fresh s₀ P) {x y : Step Lobby Call}
    (hx : x ∈ tr) (hy : y ∈ tr) {id : Uuid} {row row' : Device}
    (hrow : x.post.devices.lookup id = some row) (hrow' : y.post.devices.lookup id = some row') :
    row.fingerprint = row'.fingerprint := by
  obtain ⟨later, earlier, hsplit⟩ := List.append_of_mem hx
  rw [hsplit, List.append_cons] at hy
  rcases List.mem_append.1 hy with hlater | hearlier
  · exact (row_after hrun hfresh hsplit hlater hrow hrow').print.symm
  · obtain ⟨mid, early, rfl⟩ := List.append_of_mem hearlier
    have hsplit' : tr = (later ++ x :: mid) ++ y :: early := by
      rw [hsplit]
      simp
    exact (row_after hrun hfresh hsplit' (by simp) hrow' hrow).print

/-- **The device that is challenged and the device that is trusted.** Take a `login` that ended in a
challenge and an `mfaVerify` that answered that challenge, whatever else happened. The device of the
new session is trusted from then on under the fingerprint that is stored with the challenge, so that
the next login is not challenged, and no device of another fingerprint became trusted, if and only if
what the headers of the second request tell digests to the same as what the headers and the body of the
first do. -/
theorem challenged_device_trusted (hrun : LobbyRun env s₀ tr P)
    (hstart : s₀.devices.Distinct ownerAndPrint) (hfresh : Fresh s₀ P) {i j : ℕ}
    {now now' : Instant} {client client' : Client} {dto : LoginDto} {d d' : SignInDraws}
    {token : Token} {mfaToken : Text} {code : String} {issued : IssueSessionResult}
    (hlogin : P.Returned i (.login now client dto d) (.outcome (.mfa token)))
    (hverify : P.Returned j (.mfaVerify now' client' mfaToken code d') (.signedIn issued))
    (hchallenge : (verifyMfa now' mfaToken).bind Claims.cid = some d.challenge.id) :
    (∃ cid pending, (verifyMfa now' mfaToken).bind Claims.cid = some cid ∧
      P.state.pendingDeviceFingerprint.lookup cid = some pending ∧
      TrustsPending env client dto pending j issued.session tr) ↔ Agree env client dto client' := by
  have hpending := pending_of_login hrun hfresh hlogin
  have hmarked : Marked issued.session.userId (fingerprint env (readClientCtx client'))
      issued.session.deviceId (realms (own j tr)) := vow_of_run hrun hverify
  constructor
  · rintro ⟨cid, pending, hcid, hstored, htrusts⟩
    obtain rfl := Option.some.inj (hcid.symm.trans hchallenge)
    obtain rfl := Option.some.inj (hstored.symm.trans hpending)
    -- the device was found under the one fingerprint, and marked under the other
    obtain ⟨later, x, earlier, hsplit, -, hthere, hrecognized⟩ := htrusts.recognized
    obtain ⟨row, hknown, -⟩ := (hrecognized x (by simp) hthere).found
    obtain ⟨hrow, -, hprint⟩ := findKnown_some hknown
    obtain ⟨later', y, earlier', row', hsplit', -, hrow', -, hprint', -⟩ :=
      marked_step hrun hfresh hmarked
    have hsame := print_eq hrun hfresh (by simp [hsplit]) (by simp [hsplit']) hrow hrow'
    exact agree_iff.2 (hprint'.symm.trans (hsame.symm.trans hprint))
  · intro hagree
    have hprint := agree_iff.1 hagree
    rw [hprint] at hmarked
    refine ⟨d.challenge.id, _, hchallenge, hpending, ?_⟩
    refine trustsPending_of_agree hrun hstart hfresh (c := .mfaVerify now' client' mfaToken code d')
      (fun x hx htid => ?_) (congrArg some hprint) hmarked
    obtain ⟨t, ht, hcall⟩ := hrun.thread_of_step hx
    rw [htid, hverify.thread] at ht
    obtain rfl := Option.some.inj ht
    exact hcall.symm

end Runs

/-! ## Ann signs in on a new device -/

/-- Ann, who has no device yet. -/
def sampleLobby : Lobby where
  realm := { sampleRealm with db := { sampleRealm.db with
    users := (∅ : Table Uuid Identity.User).insert 1
      ⟨"ann@example.com", some "+15550001", "$correct horse", .customer, .active⟩
    devices := ∅ } }
  pendingDeviceFingerprint := ∅

def sampleClient : Client := ⟨some "Firefox", some "en", some "Europe/Paris"⟩

/-- Ann's login, with the time zone of the header in its body, and perhaps a canvas hash. -/
def sampleDto (canvasHash : Option String) : LoginDto :=
  ⟨"ann@example.com", "correct horse", some "Europe/Paris", canvasHash⟩

def sampleToken : Token := signMfa sampleEnv.ttl 0 22 1 21

def sampleDraws (n : ℕ) : SignInDraws :=
  ⟨n, ⟨n + 1, "123456", 0⟩, n + 2, ⟨n + 80, n + 81, n + 82, n + 83⟩⟩

/-- Ann logs in and is challenged, answers the code, and logs in once more. -/
def sampleSignIns (canvasHash : Option String) : List (Choice Call) :=
  [.call (.login 0 sampleClient (sampleDto canvasHash) (sampleDraws 20)), .step 0, .step 0, .step 0,
    .call (.mfaVerify 2000 sampleClient (.signed sampleToken) "123456" (sampleDraws 30)), .step 1,
    .step 1, .step 1, .step 1, .step 1, .step 1, .step 1,
    .call (.login 5000 sampleClient (sampleDto canvasHash) (sampleDraws 40)), .step 2, .step 2,
    .step 2, .step 2, .step 2, .step 2]

/-- The run of these calls. -/
def sampleSignedIn (canvasHash : Option String) :
    List (Step Lobby Call) × Pool Lobby Error Answer Call :=
  exec (fun _ => handle sampleEnv) sampleLobby (sampleSignIns canvasHash)

/-- What Ann's code is answered with. -/
def sampleIssued : IssueSessionResult where
  sessionId := 110
  session := issuedRow sampleEnv 2000 ⟨110, 111, 112, 113⟩ ⟨1, 30, .customer⟩
  accessToken := signAccess sampleEnv.ttl 2000 112 1 110 (some .customer)
  refreshToken := issuedRefresh sampleEnv 2000 ⟨110, 111, 112, 113⟩ 1
  revokedIds := []

theorem sampleSignedIn_run (canvasHash : Option String) : LobbyRun sampleEnv sampleLobby
    (sampleSignedIn canvasHash).1 (sampleSignedIn canvasHash).2 := by
  refine exec_run _ fun c hc => ?_
  simp only [sampleSignIns, List.mem_cons, Choice.call.injEq, reduceCtorEq, false_or,
    List.not_mem_nil, or_false] at hc
  rcases hc with rfl | rfl | rfl <;> trivial

theorem sampleLobby_distinct : sampleLobby.devices.Distinct ownerAndPrint :=
  fun _ _ _ _ hrow => by cases hrow

/-- Ann's browser sends no canvas hash, and her device is recognized. -/
theorem device_trusted_sample :
    ∃ cid pending, (verifyMfa 2000 (.signed sampleToken)).bind Claims.cid = some cid ∧
      (sampleSignedIn none).2.state.pendingDeviceFingerprint.lookup cid = some pending ∧
      TrustsPending sampleEnv sampleClient (sampleDto none) pending 1 sampleIssued.session
        (sampleSignedIn none).1 := by
  have hlogin : (sampleSignedIn none).2.Returned 0 (.login 0 sampleClient (sampleDto none)
      (sampleDraws 20)) (.outcome (.mfa sampleToken)) := by decide +kernel
  have hverify : (sampleSignedIn none).2.Returned 1 (.mfaVerify 2000 sampleClient
      (.signed sampleToken) "123456" (sampleDraws 30)) (.signedIn sampleIssued) := by decide +kernel
  have hagree : Agree sampleEnv sampleClient (sampleDto none) sampleClient := by decide +kernel
  exact (challenged_device_trusted (sampleSignedIn_run none) sampleLobby_distinct
    ⟨by decide +kernel, by decide +kernel, by decide +kernel⟩ hlogin hverify (by decide +kernel)).2
    hagree

/-- Ann's browser sends a canvas hash with the login, and she answers the code from the same browser:
another device is trusted, and her next login is challenged again. -/
theorem challenged_again :
    LobbyRun sampleEnv sampleLobby (sampleSignedIn (some "c0ffee")).1
      (sampleSignedIn (some "c0ffee")).2 ∧
    sampleLobby.devices.Distinct ownerAndPrint ∧
    Fresh sampleLobby (sampleSignedIn (some "c0ffee")).2 ∧
    (sampleSignedIn (some "c0ffee")).2.Returned 0 (.login 0 sampleClient
      (sampleDto (some "c0ffee")) (sampleDraws 20)) (.outcome (.mfa sampleToken)) ∧
    (sampleSignedIn (some "c0ffee")).2.Returned 1 (.mfaVerify 2000 sampleClient
      (.signed sampleToken) "123456" (sampleDraws 30)) (.signedIn sampleIssued) ∧
    (verifyMfa 2000 (.signed sampleToken)).bind Claims.cid = some (sampleDraws 20).challenge.id ∧
    (¬ ∃ cid pending, (verifyMfa 2000 (.signed sampleToken)).bind Claims.cid = some cid ∧
      (sampleSignedIn (some "c0ffee")).2.state.pendingDeviceFingerprint.lookup cid = some pending ∧
      TrustsPending sampleEnv sampleClient (sampleDto (some "c0ffee")) pending 1 sampleIssued.session
        (sampleSignedIn (some "c0ffee")).1) ∧
    (sampleSignedIn (some "c0ffee")).2.Returned 2 (.login 5000 sampleClient
      (sampleDto (some "c0ffee")) (sampleDraws 40))
      (.outcome (.mfa (signMfa sampleEnv.ttl 5000 42 1 41))) := by
  refine ⟨sampleSignedIn_run _, sampleLobby_distinct,
    ⟨by decide +kernel, by decide +kernel, by decide +kernel⟩, by decide +kernel, by decide +kernel,
    by decide +kernel, ?_, by decide +kernel⟩
  rintro ⟨cid, pending, hcid, hstored, htrusts⟩
  have hchallenge : (verifyMfa 2000 (.signed sampleToken)).bind Claims.cid = some 21 := by
    decide +kernel
  have hother : ∀ x ∈ (sampleSignedIn (some "c0ffee")).1, ∀ row ∈ x.post.devices.lookup 30,
      (sampleSignedIn (some "c0ffee")).2.state.pendingDeviceFingerprint.lookup 21 ≠
        some row.fingerprint := by
    decide +kernel
  obtain rfl := Option.some.inj (hcid.symm.trans hchallenge)
  obtain ⟨later, x, earlier, hsplit, -, hthere, hrecognized⟩ := htrusts.recognized
  obtain ⟨row, hknown, -⟩ := (hrecognized x (by simp) hthere).found
  obtain ⟨hrow, -, hprint⟩ := findKnown_some hknown
  refine hother x (by simp [hsplit]) row hrow ?_
  rw [hprint]
  exact hstored

end BankDemo.Devices
