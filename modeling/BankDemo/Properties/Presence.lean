import BankDemo.Realtime.Calls

/-!
# The presence of the staff

The gateway counts the sockets of each admin, keeps one status for all of them and broadcasts the
aggregate on some of its branches only.

* `presence_kept`: the entries are the admins with a connected socket, with exactly their sockets,
  and the aggregate is the one that was broadcast last.
* `presence_reported`: the status of an admin is the one that it reported last, from whichever of
  its sockets, since it last had none. So the aggregate may be `online` though no socket that is left
  has ever reported (`online_after_tab_left`).
-/

namespace BankDemo.Identity

open Crypto Prog

/-! ## The aggregate -/

section Aggregate

variable {t t' : Table Uuid AdminPresence}

theorem entries_eq_nil_iff : t.entries = [] ↔ ∀ userId, t.lookup userId = none := by
  constructor
  · intro h userId
    rw [← Option.not_isSome_iff_eq_none, Option.isSome_iff_exists]
    rintro ⟨entry, hentry⟩
    have hmem := Table.mem_entries_iff.2 hentry
    rw [h] at hmem
    cases hmem
  · intro h
    refine List.eq_nil_iff_forall_not_mem.2 fun e he => ?_
    have hlookup := Table.mem_entries_iff.1 he
    rw [h] at hlookup
    cases hlookup

theorem any_online_iff : (t.entries.any fun e => e.2.status = .online) = true ↔
    ∃ userId entry, t.lookup userId = some entry ∧ entry.status = .online := by
  rw [List.any_eq_true]
  constructor
  · rintro ⟨e, he, hstatus⟩
    exact ⟨e.1, e.2, Table.mem_entries_iff.1 he, of_decide_eq_true hstatus⟩
  · rintro ⟨userId, entry, hentry, hstatus⟩
    exact ⟨⟨userId, entry⟩, Table.mem_entries_iff.2 hentry, decide_eq_true hstatus⟩

/-- Nobody is counted. -/
theorem computePresence_offline :
    computePresence t = .offline ↔ ∀ userId, t.lookup userId = none := by
  rw [← entries_eq_nil_iff]
  unfold computePresence
  cases t.entries with
  | nil => simp
  | cons e l =>
    simp only [List.isEmpty_cons, Bool.false_eq_true, if_false, reduceCtorEq, iff_false]
    split <;> simp

/-- Somebody is online. -/
theorem computePresence_online : computePresence t = .online ↔
    ∃ userId entry, t.lookup userId = some entry ∧ entry.status = .online := by
  rw [← any_online_iff]
  unfold computePresence
  cases t.entries with
  | nil => simp
  | cons e l =>
    simp only [List.isEmpty_cons, Bool.false_eq_true, if_false]
    cases (e :: l).any fun e => e.2.status = .online <;> simp

/-- The aggregate depends on who is counted and on the statuses only. -/
theorem computePresence_congr
    (h : ∀ userId, (t.lookup userId).map AdminPresence.status =
      (t'.lookup userId).map AdminPresence.status) : computePresence t = computePresence t' := by
  have hiff : ∀ s : PresenceStatus, s ≠ .away →
      (computePresence t = s ↔ computePresence t' = s) := by
    intro s hs
    cases s with
    | away => exact absurd rfl hs
    | offline =>
      rw [computePresence_offline, computePresence_offline]
      refine forall_congr' fun userId => ?_
      rw [← Option.map_eq_none_iff (f := AdminPresence.status), h, Option.map_eq_none_iff]
    | online =>
      rw [computePresence_online, computePresence_online]
      refine exists_congr fun userId => ?_
      have hstatus : ∀ x : Option AdminPresence,
          (∃ entry, x = some entry ∧ entry.status = .online) ↔
            x.map AdminPresence.status = some .online := fun x => Option.map_eq_some_iff.symm
      rw [hstatus, hstatus, h]
  cases ht : computePresence t with
  | online => exact ((hiff .online (by decide)).1 ht).symm
  | offline => exact ((hiff .offline (by decide)).1 ht).symm
  | away =>
    cases ht' : computePresence t' with
    | away => rfl
    | online => rw [(hiff .online (by decide)).2 ht'] at ht; cases ht
    | offline => rw [(hiff .offline (by decide)).2 ht'] at ht; cases ht

end Aggregate

/-! ## The sockets of the staff -/

/-- The socket is connected, and an admin's: this one's. -/
def AdminSocket (sockets : Table Uuid Socket) (userId id : Uuid) : Prop :=
  ∃ socket, sockets.lookup id = some socket ∧ socket.userId = some userId ∧
    isStaff socket.role = true

/-- The admin has a connected socket. -/
def Connected (sockets : Table Uuid Socket) (userId : Uuid) : Prop :=
  ∃ id, AdminSocket sockets userId id

/-- The entries are those of the admins with a connected socket, with their sockets. -/
structure Books (sockets : Table Uuid Socket) (presence : Table Uuid AdminPresence) : Prop where
  counted : ∀ userId, Connected sockets userId → (presence.lookup userId).isSome = true
  nonempty : ∀ userId entry, presence.lookup userId = some entry → Connected sockets userId
  sockets : ∀ userId entry, presence.lookup userId = some entry →
    ∀ id, id ∈ entry.sockets ↔ AdminSocket sockets userId id
  nodup : ∀ userId entry, presence.lookup userId = some entry → entry.sockets.Nodup

section Sockets

variable {sockets : Table Uuid Socket} {presence : Table Uuid AdminPresence} {id : Uuid}
  {socket : Socket}

theorem adminSocket_insert (hnew : sockets.lookup id = none) {userId id' : Uuid} :
    AdminSocket (sockets.insert id socket) userId id' ↔
      (id' = id ∧ socket.userId = some userId ∧ isStaff socket.role = true) ∨
        AdminSocket sockets userId id' := by
  unfold AdminSocket
  rw [Table.lookup_insert_ite]
  by_cases hid : id' = id
  · rw [if_pos hid, hid, hnew]
    simp
  · rw [if_neg hid]
    simp [hid]

theorem adminSocket_erase {userId id' : Uuid} :
    AdminSocket (sockets.erase id) userId id' ↔ id' ≠ id ∧ AdminSocket sockets userId id' := by
  unfold AdminSocket
  by_cases hid : id' = id
  · rw [hid, AList.lookup_erase]
    simp
  · rw [AList.lookup_erase_ne hid]
    simp [hid]

theorem Books.isSome_iff (h : Books sockets presence) {userId : Uuid} :
    (presence.lookup userId).isSome = true ↔ Connected sockets userId := by
  refine ⟨fun hsome => ?_, h.counted userId⟩
  obtain ⟨entry, hentry⟩ := Option.isSome_iff_exists.1 hsome
  exact h.nonempty userId entry hentry

/-- Nobody is counted when nobody is connected. -/
theorem Books.offline (h : Books sockets presence) :
    computePresence presence = .offline ↔ ∀ userId, ¬ Connected sockets userId := by
  rw [computePresence_offline]
  refine forall_congr' fun userId => ?_
  rw [← h.isSome_iff, Option.not_isSome_iff_eq_none]

/-- The entry of one admin: it has the sockets that the admin has, and there is none without one. -/
def Exact (sockets : Table Uuid Socket) (userId : Uuid) : Option AdminPresence → Prop
  | none => ¬ Connected sockets userId
  | some entry => Connected sockets userId ∧
      (∀ id, id ∈ entry.sockets ↔ AdminSocket sockets userId id) ∧ entry.sockets.Nodup

theorem Books.exact (h : Books sockets presence) (userId : Uuid) :
    Exact sockets userId (presence.lookup userId) := by
  cases hentry : presence.lookup userId with
  | none =>
    intro hconnected
    have hsome := h.counted userId hconnected
    rw [hentry] at hsome
    cases hsome
  | some entry =>
    exact ⟨h.nonempty userId entry hentry, h.sockets userId entry hentry, h.nodup userId entry hentry⟩

theorem books_of_exact (h : ∀ userId, Exact sockets userId (presence.lookup userId)) :
    Books sockets presence := by
  have hentry : ∀ userId entry, presence.lookup userId = some entry →
      Exact sockets userId (some entry) := by
    intro userId entry he
    rw [← he]
    exact h userId
  refine ⟨fun userId hconnected => ?_, fun userId entry he => (hentry userId entry he).1,
    fun userId entry he => (hentry userId entry he).2.1,
    fun userId entry he => (hentry userId entry he).2.2⟩
  have hexact := h userId
  cases hlookup : presence.lookup userId with
  | none =>
    rw [hlookup] at hexact
    exact absurd hconnected hexact
  | some entry => rfl

/-- An admin whose sockets stay. -/
theorem Exact.congr {sockets' : Table Uuid Socket} {userId : Uuid} {o : Option AdminPresence}
    (h : Exact sockets userId o)
    (hsame : ∀ id, AdminSocket sockets' userId id ↔ AdminSocket sockets userId id) :
    Exact sockets' userId o := by
  have hconnected : Connected sockets' userId ↔ Connected sockets userId :=
    exists_congr fun id => hsame id
  cases o with
  | none => exact fun hc => h (hconnected.1 hc)
  | some entry =>
    exact ⟨hconnected.2 h.1, fun id => (h.2.1 id).trans (hsame id).symm, h.2.2⟩

/-- A change of sockets that is none of the staff's. -/
theorem Books.congr {sockets' : Table Uuid Socket} (h : Books sockets presence)
    (hsame : ∀ userId id, AdminSocket sockets' userId id ↔ AdminSocket sockets userId id) :
    Books sockets' presence :=
  books_of_exact fun userId => (h.exact userId).congr (hsame userId)

/-- A socket of nobody's or of a customer's. -/
def Socket.Other (socket : Socket) : Prop :=
  ∀ userId, ¬ (socket.userId = some userId ∧ isStaff socket.role = true)

theorem Books.connect_other (h : Books sockets presence) (hnew : sockets.lookup id = none)
    (hother : socket.Other) : Books (sockets.insert id socket) presence := by
  refine h.congr fun userId id' => ?_
  rw [adminSocket_insert hnew]
  exact ⟨fun h => h.resolve_left fun hadmin => hother userId hadmin.2, .inr⟩

theorem Books.disconnect_other (h : Books sockets presence)
    (hother : ∀ socket, sockets.lookup id = some socket → socket.Other) :
    Books (sockets.erase id) presence := by
  refine h.congr fun userId id' => ?_
  rw [adminSocket_erase]
  refine ⟨And.right, fun hadmin => ⟨?_, hadmin⟩⟩
  rintro rfl
  obtain ⟨socket, hsocket, hstaff⟩ := hadmin
  exact hother socket hsocket userId hstaff

/-- Another status of an admin. -/
theorem Books.report (h : Books sockets presence) {userId : Uuid} {entry : AdminPresence}
    (hentry : presence.lookup userId = some entry) (status : PresenceStatus) :
    Books sockets (presence.insert userId { entry with status }) := by
  refine books_of_exact fun u => ?_
  rw [Table.lookup_insert_ite]
  split
  · rename_i hu
    have hexact := h.exact userId
    rw [hentry] at hexact
    rw [hu]
    exact hexact
  · exact h.exact u

variable {userId : Uuid} (hstaff : socket.userId = some userId ∧ isStaff socket.role = true)

include hstaff

/-- A new socket of an admin, counted in the entry that there is or in a new one. -/
theorem Books.connect (h : Books sockets presence) (hnew : sockets.lookup id = none) :
    Books (sockets.insert id socket) (presence.insert userId
      { (presence.lookup userId).getD ⟨.away, []⟩ with
        sockets := ((presence.lookup userId).getD ⟨.away, []⟩).sockets.insert id }) := by
  have hadmin : ∀ u id', AdminSocket (sockets.insert id socket) u id' ↔
      (u = userId ∧ id' = id) ∨ AdminSocket sockets u id' := by
    intro u id'
    rw [adminSocket_insert hnew]
    refine or_congr_left ⟨fun hc => ⟨?_, hc.1⟩, fun hc => ⟨hc.2, hc.1 ▸ hstaff.1, hstaff.2⟩⟩
    exact Option.some.inj (hc.2.1.symm.trans hstaff.1)
  -- the sockets of the entry before
  have hbefore : (∀ id', id' ∈ ((presence.lookup userId).getD ⟨.away, []⟩).sockets ↔
      AdminSocket sockets userId id') ∧
        ((presence.lookup userId).getD ⟨.away, []⟩).sockets.Nodup := by
    have hexact := h.exact userId
    cases hentry : presence.lookup userId with
    | some entry =>
      rw [hentry] at hexact
      exact hexact.2
    | none =>
      rw [hentry] at hexact
      exact ⟨fun id' => ⟨fun hmem => (by cases hmem), fun hid => absurd ⟨id', hid⟩ hexact⟩,
        List.nodup_nil⟩
  refine books_of_exact fun u => ?_
  rw [Table.lookup_insert_ite]
  split
  · rename_i hu
    subst hu
    refine ⟨⟨id, (hadmin u id).2 (.inl ⟨rfl, rfl⟩)⟩, fun id' => ?_, hbefore.2.insert⟩
    rw [List.mem_insert_iff, hbefore.1, hadmin]
    simp
  · rename_i hu
    refine (h.exact u).congr fun id' => ?_
    rw [hadmin]
    simp [hu]

/-- A socket of an admin leaves, and with the last one the entry. -/
theorem Books.disconnect (h : Books sockets presence) (hsocket : sockets.lookup id = some socket)
    {entry : AdminPresence} (hentry : presence.lookup userId = some entry) :
    Books (sockets.erase id) (if (entry.sockets.erase id).isEmpty then presence.erase userId
      else presence.insert userId { entry with sockets := entry.sockets.erase id }) := by
  have hnodup := h.nodup userId entry hentry
  have hleft : ∀ id', id' ∈ entry.sockets.erase id ↔
      AdminSocket (sockets.erase id) userId id' := by
    intro id'
    rw [hnodup.mem_erase_iff, adminSocket_erase, h.sockets userId entry hentry]
  -- the sockets of the others stay
  have hothers : ∀ u id', u ≠ userId →
      (AdminSocket (sockets.erase id) u id' ↔ AdminSocket sockets u id') := by
    intro u id' hu
    rw [adminSocket_erase]
    refine ⟨And.right, fun hadmin => ⟨?_, hadmin⟩⟩
    rintro rfl
    obtain ⟨socket', hlookup, huser, -⟩ := hadmin
    obtain rfl := Option.some.inj (hsocket.symm.trans hlookup)
    exact hu (Option.some.inj (huser.symm.trans hstaff.1))
  refine books_of_exact fun u => ?_
  by_cases hu : u = userId
  · subst hu
    split
    · rename_i hempty
      rw [AList.lookup_erase]
      rintro ⟨id', hid⟩
      have hmem := (hleft id').2 hid
      rw [List.isEmpty_iff.1 hempty] at hmem
      cases hmem
    · rename_i hempty
      rw [AList.lookup_insert]
      refine ⟨?_, hleft, hnodup.erase id⟩
      obtain ⟨id', hid⟩ := List.exists_mem_of_ne_nil _ fun hnil => hempty (List.isEmpty_iff.2 hnil)
      exact ⟨id', (hleft id').1 hid⟩
  · -- the others and their entries stay
    have hrow : (if (entry.sockets.erase id).isEmpty then presence.erase userId
        else presence.insert userId { entry with sockets := entry.sockets.erase id }).lookup u =
          presence.lookup u := by
      split
      · exact AList.lookup_erase_ne hu
      · exact AList.lookup_insert_ne hu
    rw [hrow]
    exact (h.exact u).congr fun id' => hothers u id' hu

end Sockets

/-! ## What the calls do -/

/-- The branches that end in `broadcastPresence`. -/
def broadcasts : WireCall → Realm → Bool
  | .connect now _ h, _ =>
    (authenticate now h).any fun socket => socket.userId.isSome && isStaff socket.role
  | .disconnect id, w =>
    (w.sockets.lookup id).any fun socket => isStaff socket.role && socket.userId.any fun userId =>
      (w.adminPresence.lookup userId).any fun entry => (entry.sockets.erase id).isEmpty
  | .adminPresence id status, w =>
    (w.sockets.lookup id).any fun socket => isStaff socket.role && socket.userId.any fun userId =>
      status ≠ .offline && (presenceOf w userId ⟨.away, [id]⟩).status ≠ status
  | _, _ => false

/-- What the admin reports by a call: `online` or `away`. -/
def reportOf (userId : Uuid) : WireCall → Realm → Option PresenceStatus
  | .adminPresence id status, w =>
    if status ≠ .offline ∧ (w.sockets.lookup id).any (fun socket =>
      socket.userId = some userId && isStaff socket.role) then some status else none
  | _, _ => none

/-- The call is the gateway's, and a socket that connects is a new one. -/
def Told (c : WireCall) (w : Realm) : Prop :=
  match c with
  | .session _ => False
  | .connect _ id _ => w.sockets.lookup id = none
  | _ => True

instance (c : WireCall) (w : Realm) : Decidable (Told c w) :=
  match c with
  | .session _ => inferInstanceAs (Decidable False)
  | .connect _ id _ => inferInstanceAs (Decidable (w.sockets.lookup id = none))
  | .disconnect _ | .adminPresence _ _ | .presenceQuery _ | .typing _ _ _ | .event _ =>
    inferInstanceAs (Decidable True)

/-- What a call does to the sockets and to the entries. -/
inductive Move (c : WireCall) (w w' : Realm) : Prop
  /-- Nothing. -/
  | idle (hsockets : w'.sockets = w.sockets) (hpresence : w'.adminPresence = w.adminPresence)
      (hreport : ∀ userId, reportOf userId c w = none) (hquiet : broadcasts c w = false)
  /-- A socket that is not an admin's connects. -/
  | joins {id : Uuid} {socket : Socket} (hnew : w.sockets.lookup id = none) (hother : socket.Other)
      (hsockets : w'.sockets = w.sockets.insert id socket)
      (hpresence : w'.adminPresence = w.adminPresence)
      (hreport : ∀ userId, reportOf userId c w = none) (hquiet : broadcasts c w = false)
  /-- A socket that is not an admin's leaves, or one that was not there. -/
  | leaves {id : Uuid} (hother : ∀ socket, w.sockets.lookup id = some socket → socket.Other)
      (hsockets : w'.sockets = w.sockets.erase id)
      (hpresence : w'.adminPresence = w.adminPresence)
      (hreport : ∀ userId, reportOf userId c w = none) (hquiet : broadcasts c w = false)
  /-- A socket of an admin connects. -/
  | adminJoins {id userId : Uuid} {socket : Socket} (hnew : w.sockets.lookup id = none)
      (hstaff : socket.userId = some userId ∧ isStaff socket.role = true)
      (hsockets : w'.sockets = w.sockets.insert id socket)
      (hpresence : w'.adminPresence = w.adminPresence.insert userId
        { (w.adminPresence.lookup userId).getD ⟨.away, []⟩ with
          sockets := ((w.adminPresence.lookup userId).getD ⟨.away, []⟩).sockets.insert id })
      (hreport : ∀ userId, reportOf userId c w = none) (hloud : broadcasts c w = true)
  /-- A socket of an admin leaves. -/
  | adminLeaves {id userId : Uuid} {socket : Socket} {entry : AdminPresence}
      (hsocket : w.sockets.lookup id = some socket)
      (hstaff : socket.userId = some userId ∧ isStaff socket.role = true)
      (hentry : w.adminPresence.lookup userId = some entry)
      (hsockets : w'.sockets = w.sockets.erase id)
      (hpresence : w'.adminPresence = if (entry.sockets.erase id).isEmpty then
          w.adminPresence.erase userId
        else w.adminPresence.insert userId { entry with sockets := entry.sockets.erase id })
      (hreport : ∀ userId, reportOf userId c w = none)
      (hloud : broadcasts c w = (entry.sockets.erase id).isEmpty)
  /-- An admin reports a status. -/
  | reports {id userId : Uuid} {entry : AdminPresence} {status : PresenceStatus}
      (hadmin : AdminSocket w.sockets userId id)
      (hentry : w.adminPresence.lookup userId = some entry) (hsockets : w'.sockets = w.sockets)
      (hpresence : w'.adminPresence = if entry.status = status then w.adminPresence
        else w.adminPresence.insert userId { entry with status })
      (hreport : ∀ u, reportOf u c w = if u = userId then some status else none)
      (hloud : broadcasts c w = decide (entry.status ≠ status))

theorem other_of_not {socket : Socket}
    (h : ∀ userId, socket.userId = some userId → isStaff socket.role = true → False) :
    socket.Other :=
  fun userId hstaff => h userId hstaff.1 hstaff.2

section Moves

variable {env : Env} {w : Realm} (hbooks : Books w.sockets w.adminPresence)

theorem move_connect {now : Instant} {id : Uuid} {h : Handshake}
    (hnew : w.sockets.lookup id = none) :
    Move (.connect now id h) w (handleConnection now id h w) := by
  unfold handleConnection
  cases hauth : authenticate now h with
  | none => exact .idle rfl rfl (fun _ => rfl) (by simp [broadcasts, hauth])
  | some socket =>
    dsimp only
    cases huser : socket.userId with
    | none =>
      exact .joins hnew (other_of_not fun u hu _ => by rw [huser] at hu; cases hu) rfl rfl
        (fun _ => rfl) (by simp [broadcasts, hauth, huser])
    | some userId =>
      cases hrole : isStaff socket.role with
      | false =>
        exact .joins hnew (other_of_not fun u _ hr => by rw [hrole] at hr; cases hr) rfl rfl
          (fun _ => rfl) (by simp [broadcasts, hauth, hrole])
      | true =>
        exact .adminJoins hnew ⟨huser, hrole⟩ rfl rfl (fun _ => rfl)
          (by simp [broadcasts, hauth, huser, hrole])

include hbooks

theorem move_disconnect {id : Uuid} : Move (.disconnect id) w (handleDisconnect id w) := by
  unfold handleDisconnect
  dsimp only
  cases hsocket : w.sockets.lookup id with
  | none =>
    exact .leaves (fun socket h => by rw [hsocket] at h; cases h) rfl rfl (fun _ => rfl)
      (by simp [broadcasts, hsocket])
  | some socket =>
    dsimp only
    have honly : ∀ socket', w.sockets.lookup id = some socket' → socket' = socket :=
      fun socket' h => Option.some.inj (h.symm.trans hsocket)
    cases huser : socket.userId with
    | none =>
      refine .leaves (fun socket' h => ?_) rfl rfl (fun _ => rfl)
        (by simp [broadcasts, hsocket, huser])
      rw [honly socket' h]
      exact other_of_not fun u hu _ => by rw [huser] at hu; cases hu
    | some userId =>
      cases hrole : isStaff socket.role with
      | false =>
        refine .leaves (fun socket' h => ?_) rfl rfl (fun _ => rfl)
          (by simp [broadcasts, hsocket, hrole])
        rw [honly socket' h]
        exact other_of_not fun u _ hr => by rw [hrole] at hr; cases hr
      | true =>
        obtain ⟨entry, hentry⟩ := Option.isSome_iff_exists.1
          (hbooks.counted userId ⟨id, socket, hsocket, huser, hrole⟩)
        dsimp only
        rw [hentry]
        dsimp only
        refine .adminLeaves hsocket ⟨huser, hrole⟩ hentry ?_ ?_ (fun _ => rfl)
          (by simp [broadcasts, hsocket, huser, hrole, hentry])
        · split <;> rfl
        · split <;> rfl

theorem move_onAdminPresence {id : Uuid} {status : PresenceStatus} :
    Move (.adminPresence id status) w (onAdminPresence id status w) := by
  unfold onAdminPresence
  cases hsocket : w.sockets.lookup id with
  | none =>
    exact .idle rfl rfl (fun u => by simp [reportOf, hsocket]) (by simp [broadcasts, hsocket])
  | some socket =>
    dsimp only
    cases huser : socket.userId with
    | none =>
      exact .idle rfl rfl (fun u => by simp [reportOf, hsocket, huser])
        (by simp [broadcasts, hsocket, huser])
    | some userId =>
      cases hrole : isStaff socket.role with
      | false =>
        exact .idle rfl rfl (fun u => by simp [reportOf, hsocket, hrole])
          (by simp [broadcasts, hsocket, hrole])
      | true =>
        have hadmin : AdminSocket w.sockets userId id := ⟨socket, hsocket, huser, hrole⟩
        obtain ⟨entry, hentry⟩ := Option.isSome_iff_exists.1 (hbooks.counted userId ⟨id, hadmin⟩)
        dsimp only
        have hof : presenceOf w userId ⟨.away, [id]⟩ = entry := by simp [presenceOf, hentry]
        rw [hof]
        by_cases hoffline : status = .offline
        · rw [if_pos hoffline]
          exact .idle rfl rfl (fun u => by simp [reportOf, hoffline])
            (by simp [broadcasts, hsocket, hoffline])
        · rw [if_neg hoffline]
          have hloud : broadcasts (.adminPresence id status) w =
              decide (entry.status ≠ status) := by
            simp [broadcasts, hsocket, huser, hrole, hof, hoffline]
          refine .reports hadmin hentry ?_ ?_ (fun u => ?_) hloud
          · split <;> rfl
          · split <;> rfl
          · simp [reportOf, hsocket, huser, hrole, hoffline, eq_comm]

/-- Every call of the gateway is one of these moves. -/
theorem move_serve {c : WireCall} (htold : Told c w) : Move c w ((serve env c).run w).2 := by
  cases c with
  | session c => exact htold.elim
  | connect now id h => exact move_connect htold
  | disconnect id => exact move_disconnect hbooks
  | adminPresence id status => exact move_onAdminPresence hbooks
  | presenceQuery id =>
    show Move _ w (onPresenceQuery id w)
    unfold onPresenceQuery
    dsimp only
    split <;> exact .idle rfl rfl (fun _ => rfl) rfl
  | typing id threadId customerUserId =>
    show Move _ w (onTyping id threadId customerUserId w)
    unfold onTyping
    split
    · exact .idle rfl rfl (fun _ => rfl) rfl
    · dsimp only
      split
      · exact .idle rfl rfl (fun _ => rfl) rfl
      · split <;> exact .idle rfl rfl (fun _ => rfl) rfl
  | event e =>
    show Move _ w (onEvent e w)
    cases e <;> exact .idle rfl rfl (fun _ => rfl) rfl

end Moves

/-! ## Broadcasts -/

/-- Sockets connect, disconnect and report. -/
def isPresence : WireCall → Bool
  | .connect _ _ _ | .disconnect _ | .adminPresence _ _ => true
  | _ => false

/-- The aggregate, to every socket. -/
def announcement (w : Realm) : List Delivery :=
  w.sockets.keys.map fun id => ⟨id, none, .presenceChanged (computePresence w.adminPresence)⟩

/-- What the step sends: the aggregate where it `broadcasts`, and nothing elsewhere. -/
def Announces (c : WireCall) (w w' : Realm) : Prop :=
  w'.delivered = w.delivered ++ if broadcasts c w then announcement w' else []

theorem announces_quiet {c : WireCall} {w w' : Realm} (hquiet : broadcasts c w = false)
    (h : w'.delivered = w.delivered) : Announces c w w' := by
  rw [Announces, hquiet, h]
  exact (List.append_nil _).symm

theorem announces_loud {c : WireCall} {w w₁ : Realm} (hloud : broadcasts c w = true)
    (h : w₁.delivered = w.delivered) : Announces c w (broadcastPresence w₁) := by
  rw [Announces, hloud, if_pos rfl, ← h]
  rfl

section Announced

variable {env : Env} {w : Realm}

theorem announces_connect (now : Instant) (id : Uuid) (h : Handshake) :
    Announces (.connect now id h) w (handleConnection now id h w) := by
  unfold handleConnection
  cases hauth : authenticate now h with
  | none => exact announces_quiet (by simp [broadcasts, hauth]) rfl
  | some socket =>
    dsimp only
    cases huser : socket.userId with
    | none => exact announces_quiet (by simp [broadcasts, hauth, huser]) rfl
    | some userId =>
      cases hrole : isStaff socket.role with
      | false => exact announces_quiet (by simp [broadcasts, hauth, hrole]) rfl
      | true => exact announces_loud (by simp [broadcasts, hauth, huser, hrole]) rfl

theorem announces_disconnect (id : Uuid) :
    Announces (.disconnect id) w (handleDisconnect id w) := by
  unfold handleDisconnect
  dsimp only
  cases hsocket : w.sockets.lookup id with
  | none => exact announces_quiet (by simp [broadcasts, hsocket]) rfl
  | some socket =>
    dsimp only
    cases huser : socket.userId with
    | none => exact announces_quiet (by simp [broadcasts, hsocket, huser]) rfl
    | some userId =>
      cases hrole : isStaff socket.role with
      | false => exact announces_quiet (by simp [broadcasts, hsocket, hrole]) rfl
      | true =>
        dsimp only
        cases hentry : w.adminPresence.lookup userId with
        | none => exact announces_quiet (by simp [broadcasts, hsocket, huser, hentry]) rfl
        | some entry =>
          dsimp only
          split
          · rename_i hempty
            exact announces_loud (by simp [broadcasts, hsocket, huser, hrole, hentry, hempty]) rfl
          · rename_i hempty
            exact announces_quiet (by simp [broadcasts, hsocket, huser, hrole, hentry, hempty]) rfl

theorem announces_onAdminPresence (id : Uuid) (status : PresenceStatus) :
    Announces (.adminPresence id status) w (onAdminPresence id status w) := by
  unfold onAdminPresence
  cases hsocket : w.sockets.lookup id with
  | none => exact announces_quiet (by simp [broadcasts, hsocket]) rfl
  | some socket =>
    dsimp only
    cases huser : socket.userId with
    | none => exact announces_quiet (by simp [broadcasts, hsocket, huser]) rfl
    | some userId =>
      cases hrole : isStaff socket.role with
      | false => exact announces_quiet (by simp [broadcasts, hsocket, hrole]) rfl
      | true =>
        dsimp only
        split
        · rename_i hoffline
          exact announces_quiet (by simp [broadcasts, hsocket, hoffline]) rfl
        · rename_i hoffline
          split
          · rename_i hsame
            exact announces_quiet (by simp [broadcasts, hsocket, huser, hrole, hsame]) rfl
          · rename_i hchanged
            exact announces_loud
              (by simp [broadcasts, hsocket, huser, hrole, hoffline, hchanged]) rfl

/-- `broadcasts` says when there is a broadcast. -/
theorem announces_serve {c : WireCall} (hc : isPresence c = true) :
    Announces c w ((serve env c).run w).2 := by
  cases c with
  | connect now id h => exact announces_connect now id h
  | disconnect id => exact announces_disconnect id
  | adminPresence id status => exact announces_onAdminPresence id status
  | _ => cases hc

end Announced

/-- The aggregate that was broadcast last, `offline` at the start. -/
def lastBroadcast : List (Step Realm WireCall) → PresenceStatus
  | [] => .offline
  | x :: earlier =>
    if broadcasts x.call x.pre then computePresence x.post.adminPresence else lastBroadcast earlier

/-! ## What the moves keep -/

section Kept

variable {c : WireCall} {w w' : Realm}

theorem Move.books (h : Move c w w') (hbooks : Books w.sockets w.adminPresence) :
    Books w'.sockets w'.adminPresence := by
  cases h with
  | idle hsockets hpresence => rwa [hsockets, hpresence]
  | joins hnew hother hsockets hpresence =>
    rw [hsockets, hpresence]
    exact hbooks.connect_other hnew hother
  | leaves hother hsockets hpresence =>
    rw [hsockets, hpresence]
    exact hbooks.disconnect_other hother
  | adminJoins hnew hstaff hsockets hpresence =>
    rw [hsockets, hpresence]
    exact hbooks.connect hstaff hnew
  | adminLeaves hsocket hstaff hentry hsockets hpresence =>
    rw [hsockets, hpresence]
    exact hbooks.disconnect hstaff hsocket hentry
  | reports hadmin hentry hsockets hpresence =>
    rw [hsockets, hpresence]
    split
    · exact hbooks
    · exact hbooks.report hentry _

/-- Another set of sockets does not change the aggregate. -/
theorem computePresence_insert {t : Table Uuid AdminPresence} {userId : Uuid}
    {entry entry' : AdminPresence} (hentry : t.lookup userId = some entry)
    (hstatus : entry'.status = entry.status) :
    computePresence (t.insert userId entry') = computePresence t := by
  refine computePresence_congr fun u => ?_
  rw [Table.lookup_insert_ite]
  split
  · rename_i hu
    rw [hu, hentry]
    exact congrArg some hstatus
  · rfl

/-- Without a broadcast, the aggregate stays. -/
theorem Move.quiet (h : Move c w w') (hquiet : broadcasts c w = false) :
    computePresence w'.adminPresence = computePresence w.adminPresence := by
  cases h with
  | idle _ hpresence => rw [hpresence]
  | joins _ _ _ hpresence => rw [hpresence]
  | leaves _ _ hpresence => rw [hpresence]
  | adminJoins _ _ _ _ _ hloud =>
    rw [hloud] at hquiet
    cases hquiet
  | adminLeaves _ _ hentry _ hpresence _ hloud =>
    rw [hloud] at hquiet
    rw [hpresence, hquiet]
    exact computePresence_insert hentry rfl
  | reports _ _ _ hpresence _ hloud =>
    rw [hloud, decide_eq_false_iff_not, not_not] at hquiet
    rw [hpresence, if_pos hquiet]

end Kept

section Runs

variable {env : Env} {s₀ s : Realm} {tr : List (Step Realm WireCall)}

/-- Nobody is connected. -/
theorem books_empty (hsockets : s₀.sockets = ∅) (hpresence : s₀.adminPresence = ∅) :
    Books s₀.sockets s₀.adminPresence := by
  rw [hsockets, hpresence]
  refine ⟨?_, ?_, ?_, ?_⟩
  · rintro userId ⟨id, socket, hsocket, -⟩
    cases hsocket
  all_goals
    intro userId entry hentry
    cases hentry

theorem books_of_serial (hsockets : s₀.sockets = ∅) (hpresence : s₀.adminPresence = ∅)
    (hseq : Serial (serve env) s₀ tr s) (htold : ∀ x ∈ tr, Told x.call x.pre) :
    Books s.sockets s.adminPresence := by
  induction hseq with
  | start => exact books_empty hsockets hpresence
  | call c seq ih =>
    have hbooks := ih fun x hx => htold x (List.mem_cons_of_mem _ hx)
    exact (move_serve hbooks (htold _ List.mem_cons_self)).books hbooks

theorem lastBroadcast_of_serial (hsockets : s₀.sockets = ∅) (hpresence : s₀.adminPresence = ∅)
    (hseq : Serial (serve env) s₀ tr s) (htold : ∀ x ∈ tr, Told x.call x.pre) :
    lastBroadcast tr = computePresence s.adminPresence := by
  induction hseq with
  | start =>
    rw [hpresence]
    rfl
  | call c seq ih =>
    have hearlier := fun x hx => htold x (List.mem_cons_of_mem _ hx)
    have hbooks := books_of_serial hsockets hpresence seq hearlier
    have hmove : Move c _ ((serve env c).run _).2 := move_serve hbooks (htold _ List.mem_cons_self)
    rw [lastBroadcast]
    split
    · rfl
    · rename_i hquiet
      rw [ih hearlier]
      exact (hmove.quiet (Bool.eq_false_of_not_eq_true hquiet)).symm

theorem announces_of_serial (hseq : Serial (serve env) s₀ tr s) :
    ∀ x ∈ tr, isPresence x.call = true → Announces x.call x.pre x.post := by
  induction hseq with
  | start => exact fun x hx => absurd hx List.not_mem_nil
  | call c seq ih =>
    intro x hx hc
    rcases List.mem_cons.1 hx with rfl | hx
    · exact announces_serve hc
    · exact ih x hx hc

/-- **The books of the presence are kept**: after any sequence of connects, disconnects and
messages, the entries are those of the admins with a connected socket, each with exactly its
connected sockets; the aggregate is `offline` exactly when no admin is connected; and it is the one
that was broadcast last, by a message to every socket in each step that `broadcasts`. -/
theorem presence_kept (env : Env) (s₀ s : Realm) (tr : List (Step Realm WireCall))
    (hsockets : s₀.sockets = ∅) (hpresence : s₀.adminPresence = ∅)
    (hseq : Serial (serve env) s₀ tr s) (htold : ∀ x ∈ tr, Told x.call x.pre) :
    (∀ userId, (s.adminPresence.lookup userId).isSome = true ↔ Connected s.sockets userId) ∧
    (∀ userId entry, s.adminPresence.lookup userId = some entry →
      entry.sockets.Nodup ∧ ∀ id, id ∈ entry.sockets ↔ AdminSocket s.sockets userId id) ∧
    (computePresence s.adminPresence = .offline ↔ ∀ userId, ¬ Connected s.sockets userId) ∧
    lastBroadcast tr = computePresence s.adminPresence ∧
    ∀ x ∈ tr, isPresence x.call = true → Announces x.call x.pre x.post := by
  have hbooks := books_of_serial hsockets hpresence hseq htold
  refine ⟨fun userId => hbooks.isSome_iff, fun userId entry hentry =>
    ⟨hbooks.nodup userId entry hentry, hbooks.sockets userId entry hentry⟩, hbooks.offline,
    lastBroadcast_of_serial hsockets hpresence hseq htold, announces_of_serial hseq⟩

end Runs

/-! ## Two tabs -/

/-- Eve's handshake: she is an admin. -/
def eveHandshake : Handshake :=
  { bearer := some (.signed (signAccess sampleEnv.ttl 0 302 3 300 (some .admin))) }

/-- Eve opens two tabs, reports `online` from the first and closes it. -/
def sampleTabs : List WireCall :=
  [.connect 1000 7 eveHandshake, .adminPresence 7 .online, .connect 2000 8 eveHandshake,
    .disconnect 7]

/-- The run of calls of the gateway from the sample realm. -/
def samplePresence (cs : List WireCall) : List (Step Realm WireCall) × Realm :=
  serially (serve sampleEnv) sampleRealm cs

theorem sampleTabs_told : ∀ x ∈ (samplePresence sampleTabs).1, Told x.call x.pre := by
  decide +kernel

theorem presence_kept_sample :
    (samplePresence sampleTabs).2.adminPresence.entries = [⟨3, ⟨.online, [8]⟩⟩] ∧
    lastBroadcast (samplePresence sampleTabs).1 =
      computePresence (samplePresence sampleTabs).2.adminPresence :=
  ⟨by decide +kernel, (presence_kept sampleEnv sampleRealm _ _ rfl rfl
    (serially_serial _ sampleTabs) sampleTabs_told).2.2.2.1⟩

/-! ## Who is online -/

/-- The admin has a connected socket, as a test. -/
def isConnected (userId : Uuid) (w : Realm) : Bool :=
  w.sockets.entries.any fun e => e.2.userId = some userId && isStaff e.2.role

theorem isConnected_iff {userId : Uuid} {w : Realm} :
    isConnected userId w = true ↔ Connected w.sockets userId := by
  unfold isConnected
  rw [List.any_eq_true]
  constructor
  · rintro ⟨e, he, hstaff⟩
    rw [Bool.and_eq_true, decide_eq_true_eq] at hstaff
    exact ⟨e.1, e.2, Table.mem_entries_iff.1 he, hstaff⟩
  · rintro ⟨id, socket, hsocket, huser, hrole⟩
    exact ⟨⟨id, socket⟩, Table.mem_entries_iff.2 hsocket, by simp [huser, hrole]⟩

/-- What the admin reported last, from whichever of its sockets, since it last had none: `away` if
it has not reported since. -/
def reported (userId : Uuid) : List (Step Realm WireCall) → PresenceStatus
  | [] => .away
  | x :: earlier =>
    match reportOf userId x.call x.pre with
    | some status => status
    | none => if isConnected userId x.pre then reported userId earlier else .away

section Reported

variable {c : WireCall} {w w' : Realm} {earlier : List (Step Realm WireCall)}

/-- The status of an entry is the one reported last. -/
def Reports (tr : List (Step Realm WireCall)) (w : Realm) : Prop :=
  ∀ userId entry, w.adminPresence.lookup userId = some entry → entry.status = reported userId tr

/-- One step. -/
theorem Move.reported (h : Move c w w') (hbooks : Books w.sockets w.adminPresence)
    (hearlier : Reports earlier w) : Reports (⟨0, c, w, w'⟩ :: earlier) w' := by
  -- without a report, an old entry keeps its status, and a new one is `away`
  have hkept : ∀ {u entry}, (∀ u, reportOf u c w = none) → w.adminPresence.lookup u = some entry →
      entry.status = Identity.reported u (⟨0, c, w, w'⟩ :: earlier) := by
    intro u entry hreport hentry
    have hconnected := isConnected_iff.2 (hbooks.nonempty u entry hentry)
    rw [Identity.reported]
    dsimp only
    rw [hreport, if_pos hconnected]
    exact hearlier u entry hentry
  intro u entry hentry
  cases h with
  | idle _ hpresence hreport => exact hkept hreport (hpresence ▸ hentry)
  | joins _ _ _ hpresence hreport => exact hkept hreport (hpresence ▸ hentry)
  | leaves _ _ hpresence hreport => exact hkept hreport (hpresence ▸ hentry)
  | @adminJoins id userId socket hnew hstaff hsockets hpresence hreport hloud =>
    rw [hpresence, Table.lookup_insert_ite] at hentry
    split at hentry
    · rename_i hu
      subst hu
      obtain rfl := Option.some.inj hentry
      cases hold : w.adminPresence.lookup u with
      | some old =>
        have hstatus := hkept hreport hold
        exact hstatus
      | none =>
        have hnone : ¬ isConnected u w = true := by
          intro hconnected
          have hsome := hbooks.counted u (isConnected_iff.1 hconnected)
          rw [hold] at hsome
          cases hsome
        rw [Identity.reported]
        dsimp only
        rw [hreport, if_neg hnone]
        rfl
    · exact hkept hreport hentry
  | @adminLeaves id userId socket old hsocket hstaff hold hsockets hpresence hreport hloud =>
    rw [hpresence] at hentry
    split at hentry
    · by_cases hu : u = userId
      · rw [hu, AList.lookup_erase] at hentry
        cases hentry
      · rw [AList.lookup_erase_ne hu] at hentry
        exact hkept hreport hentry
    · rw [Table.lookup_insert_ite] at hentry
      split at hentry
      · rename_i hu
        obtain rfl := Option.some.inj hentry
        rw [hu]
        have hstatus := hkept hreport hold
        exact hstatus
      · exact hkept hreport hentry
  | @reports id userId old status hadmin hold hsockets hpresence hreport hloud =>
    by_cases hu : u = userId
    · subst hu
      have hstatus : Identity.reported u (⟨0, c, w, w'⟩ :: earlier) = status := by
        rw [Identity.reported]
        dsimp only
        rw [hreport, if_pos rfl]
      rw [hstatus]
      rw [hpresence] at hentry
      split at hentry
      · rename_i hsame
        obtain rfl := Option.some.inj (hold.symm.trans hentry)
        exact hsame
      · rw [AList.lookup_insert] at hentry
        obtain rfl := Option.some.inj hentry
        rfl
    · have hentry' : w.adminPresence.lookup u = some entry := by
        rw [hpresence] at hentry
        split at hentry
        · exact hentry
        · rwa [AList.lookup_insert_ne hu] at hentry
      rw [Identity.reported]
      dsimp only
      rw [hreport, if_neg hu]
      dsimp only
      rw [if_pos (isConnected_iff.2 (hbooks.nonempty u entry hentry'))]
      exact hearlier u entry hentry'

end Reported

section Runs

variable {env : Env} {s₀ s : Realm} {tr : List (Step Realm WireCall)}

theorem reports_of_serial (hsockets : s₀.sockets = ∅) (hpresence : s₀.adminPresence = ∅)
    (hseq : Serial (serve env) s₀ tr s) (htold : ∀ x ∈ tr, Told x.call x.pre) : Reports tr s := by
  induction hseq with
  | start =>
    intro userId entry hentry
    rw [hpresence] at hentry
    cases hentry
  | call c seq ih =>
    have hearlier := fun x hx => htold x (List.mem_cons_of_mem _ hx)
    have hbooks := books_of_serial hsockets hpresence seq hearlier
    exact (move_serve hbooks (htold _ List.mem_cons_self)).reported hbooks (ih hearlier)

/-- **Online is what somebody who is connected reported last**: after any sequence of connects,
disconnects and messages, the aggregate is `online` exactly when an admin with a connected socket
has last reported `online`, from any of the sockets it has had since it last had none; `offline`
exactly when no admin is connected; and `away` otherwise. -/
theorem presence_reported (env : Env) (s₀ s : Realm) (tr : List (Step Realm WireCall))
    (hsockets : s₀.sockets = ∅) (hpresence : s₀.adminPresence = ∅)
    (hseq : Serial (serve env) s₀ tr s) (htold : ∀ x ∈ tr, Told x.call x.pre) :
    (computePresence s.adminPresence = .online ↔
      ∃ userId, Connected s.sockets userId ∧ reported userId tr = .online) ∧
    (computePresence s.adminPresence = .offline ↔ ∀ userId, ¬ Connected s.sockets userId) := by
  have hbooks := books_of_serial hsockets hpresence hseq htold
  have hreports := reports_of_serial hsockets hpresence hseq htold
  refine ⟨?_, hbooks.offline⟩
  rw [computePresence_online]
  refine exists_congr fun userId => ⟨?_, ?_⟩
  · rintro ⟨entry, hentry, hstatus⟩
    exact ⟨hbooks.nonempty userId entry hentry, hreports userId entry hentry ▸ hstatus⟩
  · rintro ⟨hconnected, hlast⟩
    obtain ⟨entry, hentry⟩ := Option.isSome_iff_exists.1 (hbooks.counted userId hconnected)
    exact ⟨entry, hentry, (hreports userId entry hentry).trans hlast⟩

end Runs

theorem presence_reported_sample :
    reported 3 (samplePresence sampleTabs).1 = .online ∧
    computePresence (samplePresence sampleTabs).2.adminPresence = .online := by
  have hconnected : Connected (samplePresence sampleTabs).2.sockets 3 :=
    isConnected_iff.1 (by decide +kernel)
  have hlast : reported 3 (samplePresence sampleTabs).1 = .online := by decide +kernel
  exact ⟨hlast, (presence_reported sampleEnv sampleRealm _ _ rfl rfl
    (serially_serial _ sampleTabs) sampleTabs_told).1.2 ⟨3, hconnected, hlast⟩⟩

/-- The message that a socket sent last, since it connected. -/
def lastMessage (id : Uuid) : List (Step Realm WireCall) → Option PresenceStatus
  | [] => none
  | x :: earlier =>
    match x.call with
    | .adminPresence id' status => if id' = id then some status else lastMessage id earlier
    | .connect _ id' _ => if id' = id then none else lastMessage id earlier
    | _ => lastMessage id earlier

/-- The tab that reported `online` is closed and the other one has never reported, but the aggregate
stays `online`. -/
theorem online_after_tab_left : ¬ ∀ (env : Env) (s₀ s : Realm) (tr : List (Step Realm WireCall)),
    s₀.sockets = ∅ → s₀.adminPresence = ∅ → Serial (serve env) s₀ tr s →
    (∀ x ∈ tr, Told x.call x.pre) → computePresence s.adminPresence = .online →
      ∃ userId id, AdminSocket s.sockets userId id ∧ lastMessage id tr = some .online := by
  intro h
  obtain ⟨userId, id, ⟨socket, hsocket, -⟩, hlast⟩ := h sampleEnv sampleRealm _ _ rfl rfl
    (serially_serial _ sampleTabs) sampleTabs_told (by decide +kernel)
  have hmem := Table.mem_entries_iff.2 hsocket
  have hsilent : ∀ e ∈ (samplePresence sampleTabs).2.sockets.entries,
      lastMessage e.1 (samplePresence sampleTabs).1 = none := by
    decide +kernel
  have hnone := hsilent _ hmem
  dsimp only at hnone
  unfold samplePresence at hnone
  rw [hnone] at hlast
  cases hlast

end BankDemo.Identity
