import BankDemo.Realtime.Gateway
import BankDemo.Sessions.Calls

/-!
# Runs of the gateway

Sockets come and go, services push events, and all the while sessions are made, rotated and revoked.
Whatever a step is of, it delivers only to sockets that are there, and to a room only to the sockets in
it (`Delivers`); only a connecting socket is put into rooms (`SocketStep`).
-/

namespace BankDemo.Identity

open Crypto

/-- A session call, or something that the gateway is told. -/
inductive WireCall
  | session (c : Call)
  | connect (now : Instant) (id : Uuid) (h : Handshake)
  | disconnect (id : Uuid)
  | adminPresence (id : Uuid) (status : PresenceStatus)
  | presenceQuery (id : Uuid)
  | typing (id threadId : Uuid) (customerUserId : Option Uuid)
  | event (e : Event)
  deriving DecidableEq

/-- The program of a call. -/
def serve (env : Env) : WireCall → Handler Unit
  | .session c => handle env c >>= fun _ => pure ()
  | .connect now id h => emit (handleConnection now id h)
  | .disconnect id => emit (handleDisconnect id)
  | .adminPresence id status => emit (onAdminPresence id status)
  | .presenceQuery id => emit (onPresenceQuery id)
  | .typing id threadId customerUserId => emit (onTyping id threadId customerUserId)
  | .event e => emit (onEvent e)

/-! ## Deliveries -/

/-- What a step delivers: messages to rooms reach sockets that were in them before. -/
def Delivers (w w' : Realm) : Prop :=
  ∃ new, w'.delivered = w.delivered ++ new ∧ ∀ d ∈ new, ∀ room, d.room = some room →
    ∃ socket, w.sockets.lookup d.socketId = some socket ∧ room ∈ socket.rooms

theorem delivers_of_eq {w w' : Realm} (h : w'.delivered = w.delivered) : Delivers w w' :=
  ⟨[], by rw [h, List.append_nil], by simp⟩

theorem delivers_toRoom (room : Room) (message : Message) (w : Realm) :
    Delivers w (w.toRoom room message) := by
  refine ⟨_, rfl, fun d hd room' hroom => ?_⟩
  obtain ⟨id, hid, rfl⟩ := List.mem_map.1 hd
  obtain ⟨e, he, rfl⟩ := List.mem_map.1 hid
  obtain ⟨hmem, hin⟩ := List.mem_filter.1 he
  obtain rfl := Option.some.inj hroom
  exact ⟨e.2, Table.mem_entries_iff.1 hmem, by simpa using hin⟩

/-- A message to all sockets is to no room. -/
theorem delivers_toAll {w w₁ : Realm} (h : w₁.delivered = w.delivered) (message : Message) :
    Delivers w (w₁.toAll message) := by
  refine ⟨_, by rw [Realm.toAll, h], fun d hd room hroom => ?_⟩
  obtain ⟨id, -, rfl⟩ := List.mem_map.1 hd
  cases hroom

theorem delivers_broadcastPresence {w w₁ : Realm} (h : w₁.delivered = w.delivered) :
    Delivers w (broadcastPresence w₁) :=
  delivers_toAll h _

theorem Delivers.trans {w w₁ w₂ : Realm} (h : Delivers w w₁) (hsockets : w₁.sockets = w.sockets)
    (h' : Delivers w₁ w₂) : Delivers w w₂ := by
  obtain ⟨new, hnew, hroom⟩ := h
  obtain ⟨new', hnew', hroom'⟩ := h'
  refine ⟨new ++ new', by rw [hnew', hnew, List.append_assoc], fun d hd room hd' => ?_⟩
  rcases List.mem_append.1 hd with hd | hd
  · exact hroom d hd room hd'
  · rw [← hsockets]
    exact hroom' d hd room hd'

/-! ## Session calls -/

/-- A step that leaves the sockets as they are. -/
def Carries (w w' : Realm) : Prop := w'.sockets = w.sockets ∧ Delivers w w'

theorem carries_refl (w : Realm) : Carries w w := ⟨rfl, delivers_of_eq rfl⟩

section Carries

variable {α β : Type}

theorem carries_query (f : Db → α) : (query f).Each Carries := Prog.each_read _ carries_refl

theorem carries_transaction (body : Tx α) : (transaction body).Each Carries := by
  refine Prog.each_attempt carries_refl fun w r hr => ?_
  cases hb : body w.db with
  | error e => simp [hb] at hr
  | ok r' =>
    simp only [hb, Except.ok.injEq] at hr
    subst hr
    exact ⟨rfl, delivers_of_eq rfl⟩

theorem carries_emitRevoked (userId sessionId : Uuid) (reason : SessionRevokedReason) :
    (emitRevoked userId sessionId reason).Each Carries :=
  Prog.each_modify fun w => ⟨rfl, delivers_toRoom _ _ w⟩

theorem carries_forM {f : α → Handler Unit} (hf : ∀ a, (f a).Each Carries) (l : List α) :
    (l.forM f).Each Carries := by
  induction l with
  | nil => exact Prog.each_pure _
  | cons a l ih => exact Prog.each_bind (hf a) fun _ => ih

theorem carries_revokeWhere (p : Uuid → Session → Bool) (now : Instant)
    (reason : SessionRevokedReason) : (revokeWhere p now reason).Each Carries := by
  refine Prog.each_bind (carries_query _) fun found => ?_
  split
  · exact Prog.each_pure _
  · exact Prog.each_bind (carries_transaction _) fun _ =>
      Prog.each_bind (carries_forM (fun s => carries_emitRevoked _ _ _) _) fun _ =>
        Prog.each_pure _

variable (env : Env) (now : Instant)

theorem carries_revokeOne (sessionId actingUserId : Uuid) (reason : SessionRevokedReason) :
    (revokeOne now sessionId actingUserId reason).Each Carries := by
  refine Prog.each_bind (carries_query _) fun found => ?_
  split
  · exact Prog.each_throw _
  · split
    · exact Prog.each_throw _
    · split
      · exact Prog.each_pure _
      · exact Prog.each_bind (carries_transaction _) fun _ => carries_emitRevoked _ _ _

theorem carries_adminRevoke (sessionId : Uuid) : (adminRevoke now sessionId).Each Carries := by
  refine Prog.each_bind (carries_query _) fun found => ?_
  split
  · exact Prog.each_throw _
  · split
    · exact Prog.each_pure _
    · exact Prog.each_bind (carries_transaction _) fun _ =>
        Prog.each_bind (carries_emitRevoked _ _ _) fun _ => Prog.each_pure _

theorem carries_purgeForUser (userId : Uuid) : (purgeForUser now userId).Each Carries := by
  refine Prog.each_bind (carries_query _) fun active => ?_
  refine Prog.each_bind (carries_forM (fun s => carries_emitRevoked _ _ _) _) fun _ => ?_
  refine Prog.each_bind (carries_query _) fun familyIds => ?_
  exact Prog.each_bind (carries_transaction _) fun _ => Prog.each_pure _

theorem carries_issueSession (ids : Draws) (input : IssueSessionInput) :
    (issueSession env now ids input).Each Carries := by
  refine Prog.each_bind (carries_transaction _) fun revokedIds => ?_
  exact Prog.each_bind (carries_forM (fun s => carries_emitRevoked _ _ _) _) fun _ =>
    Prog.each_pure _

theorem carries_rejectRefresh (claims : Claims) :
    (rejectRefresh now claims : Handler α).Each Carries := by
  unfold rejectRefresh
  cases claims.fam with
  | none => exact Prog.each_throw _
  | some fam => exact Prog.each_bind (carries_revokeWhere _ _ _) fun _ => Prog.each_throw _

theorem carries_rotateRefresh (accessJti refreshJti : Uuid) (presented : Text) :
    (rotateRefresh env now accessJti refreshJti presented).Each Carries := by
  unfold rotateRefresh
  split
  · exact Prog.each_throw _
  · refine Prog.each_bind (carries_query _) fun replay => ?_
    split
    · exact Prog.each_bind (carries_revokeWhere _ _ _) fun _ => Prog.each_throw _
    · refine Prog.each_bind (carries_query _) fun found => ?_
      split
      · exact carries_rejectRefresh now _
      · split
        · exact carries_rejectRefresh now _
        · split
          · exact Prog.each_bind (carries_transaction _) fun _ => Prog.each_throw _
          · exact Prog.each_bind (carries_transaction _) fun _ => Prog.each_pure _

theorem carries_validate (text : Text) : (validate env now text).Each Carries := by
  unfold validate
  split
  · exact Prog.each_throw _
  · split
    · exact Prog.each_throw _
    · refine Prog.each_bind (carries_query _) fun found => ?_
      split
      · exact Prog.each_throw _
      · split
        · exact Prog.each_throw _
        · split
          · exact Prog.each_throw _
          · split
            · exact Prog.each_bind (carries_transaction _) fun _ => Prog.each_throw _
            · split
              · exact Prog.each_bind (carries_transaction _) fun _ => Prog.each_pure _
              · exact Prog.each_pure _

theorem carries_handle (c : Call) : (handle env c).Each Carries := by
  cases c with
  | issueSession now ids input =>
    exact Prog.each_bind (carries_issueSession env now ids input) fun _ => Prog.each_pure _
  | rotateRefresh now accessJti refreshJti presented =>
    exact Prog.each_bind (carries_rotateRefresh env now accessJti refreshJti presented) fun _ =>
      Prog.each_pure _
  | revokeAllForUser now userId reason =>
    exact Prog.each_bind (carries_revokeWhere _ _ _) fun _ => Prog.each_pure _
  | revokeFamily now familyId reason =>
    exact Prog.each_bind (carries_revokeWhere _ _ _) fun _ => Prog.each_pure _
  | revokeOne now sessionId actingUserId reason =>
    exact Prog.each_bind (carries_revokeOne now _ _ _) fun _ => Prog.each_pure _
  | revokeAllOther now userId currentSessionId reason =>
    exact Prog.each_bind (carries_revokeWhere _ _ _) fun _ => Prog.each_pure _
  | purgeForUser now userId =>
    exact Prog.each_bind (carries_purgeForUser now userId) fun _ => Prog.each_pure _
  | adminRevoke now sessionId =>
    exact Prog.each_bind (carries_adminRevoke now sessionId) fun _ => Prog.each_pure _
  | validate now text =>
    exact Prog.each_bind (carries_validate env now text) fun _ => Prog.each_pure _

end Carries

/-! ## Every call -/

/-- What a step of a call does to the sockets: each was there before, or has just connected, which
leaves the database as it is. -/
def SocketStep (c : WireCall) (w w' : Realm) : Prop :=
  (∀ id socket, w'.sockets.lookup id = some socket → w.sockets.lookup id = some socket ∨
    ∃ now h, c = .connect now id h ∧ authenticate now h = some socket ∧ w'.db = w.db) ∧
  Delivers w w'

theorem Carries.socketStep {c : WireCall} {w w' : Realm} (h : Carries w w') : SocketStep c w w' :=
  ⟨fun id socket hsocket => .inl (by rw [← h.1]; exact hsocket), h.2⟩

theorem carries_toRoom (room : Room) (message : Message) (w : Realm) :
    Carries w (w.toRoom room message) :=
  ⟨rfl, delivers_toRoom room message w⟩

theorem carries_broadcastPresence {w w₁ : Realm} (hsockets : w₁.sockets = w.sockets)
    (hdelivered : w₁.delivered = w.delivered) : Carries w (broadcastPresence w₁) :=
  ⟨hsockets, delivers_broadcastPresence hdelivered⟩

theorem carries_onAdminPresence (id : Uuid) (status : PresenceStatus) (w : Realm) :
    Carries w (onAdminPresence id status w) := by
  unfold onAdminPresence
  split
  · exact carries_refl w
  · split
    · split
      · exact carries_refl w
      · dsimp only
        split
        · exact carries_refl w
        · exact carries_broadcastPresence rfl rfl
    · exact carries_refl w

theorem carries_onPresenceQuery (id : Uuid) (w : Realm) : Carries w (onPresenceQuery id w) := by
  unfold onPresenceQuery
  dsimp only
  split
  · refine ⟨rfl, _, rfl, fun d hd room hroom => ?_⟩
    obtain rfl := List.mem_singleton.1 hd
    cases hroom
  · exact carries_refl w

theorem carries_onTyping (id threadId : Uuid) (customerUserId : Option Uuid) (w : Realm) :
    Carries w (onTyping id threadId customerUserId w) := by
  unfold onTyping
  split
  · exact carries_refl w
  · dsimp only
    split
    · exact carries_refl w
    · split <;> exact carries_toRoom _ _ w

theorem carries_onEvent (e : Event) (w : Realm) : Carries w (onEvent e w) := by
  have htwo : ∀ room room' message message',
      Carries w ((w.toRoom room message).toRoom room' message') := fun _ _ _ _ =>
    ⟨rfl, (delivers_toRoom _ _ w).trans rfl (delivers_toRoom _ _ _)⟩
  cases e with
  | supportMessageCreated customerUserId threadId => exact htwo _ _ _ _
  | supportThreadClosed customerUserId threadId => exact htwo _ _ _ _
  | _ => exact carries_toRoom _ _ w

theorem socketStep_handleConnection (now : Instant) (id : Uuid) (h : Handshake) (w : Realm) :
    SocketStep (.connect now id h) w (handleConnection now id h w) := by
  unfold handleConnection
  cases hauth : authenticate now h with
  | none => exact (carries_refl w).socketStep
  | some socket =>
    have hinsert : ∀ id' socket', (w.sockets.insert id socket).lookup id' = some socket' →
        w.sockets.lookup id' = some socket' ∨ id' = id ∧ socket' = socket := by
      intro id' socket' hlookup
      rw [Table.lookup_insert_ite] at hlookup
      split at hlookup
      · rename_i hid
        exact .inr ⟨hid, (Option.some.inj hlookup).symm⟩
      · exact .inl hlookup
    dsimp only
    split
    · refine ⟨fun id' socket' hlookup => ?_, delivers_broadcastPresence rfl⟩
      rcases hinsert id' socket' hlookup with hold | ⟨rfl, rfl⟩
      · exact .inl hold
      · exact .inr ⟨now, h, rfl, hauth, rfl⟩
    · refine ⟨fun id' socket' hlookup => ?_, delivers_of_eq rfl⟩
      rcases hinsert id' socket' hlookup with hold | ⟨rfl, rfl⟩
      · exact .inl hold
      · exact .inr ⟨now, h, rfl, hauth, rfl⟩

theorem socketStep_handleDisconnect (id : Uuid) (w : Realm) :
    SocketStep (.disconnect id) w (handleDisconnect id w) := by
  have herase : ∀ id' socket, (w.sockets.erase id).lookup id' = some socket →
      w.sockets.lookup id' = some socket := by
    intro id' socket hlookup
    rw [AList.lookup_erase_ne] at hlookup
    · exact hlookup
    · rintro rfl
      rw [AList.lookup_erase] at hlookup
      cases hlookup
  unfold handleDisconnect
  dsimp only
  split
  · exact ⟨fun id' socket hlookup => .inl (herase id' socket hlookup), delivers_of_eq rfl⟩
  · split
    · split
      · exact ⟨fun id' socket hlookup => .inl (herase id' socket hlookup), delivers_of_eq rfl⟩
      · split
        · exact ⟨fun id' socket hlookup => .inl (herase id' socket hlookup),
            delivers_broadcastPresence rfl⟩
        · exact ⟨fun id' socket hlookup => .inl (herase id' socket hlookup), delivers_of_eq rfl⟩
    · exact ⟨fun id' socket hlookup => .inl (herase id' socket hlookup), delivers_of_eq rfl⟩

/-- **What the calls do to the sockets**, one step at a time. -/
theorem serve_each (env : Env) (c : WireCall) : (serve env c).Each (SocketStep c) := by
  cases c with
  | session c =>
    exact Prog.each_bind ((carries_handle env c).imp fun _ _ h => h.socketStep) fun _ =>
      Prog.each_pure _
  | connect now id h => exact Prog.each_modify (socketStep_handleConnection now id h)
  | disconnect id => exact Prog.each_modify (socketStep_handleDisconnect id)
  | adminPresence id status =>
    exact Prog.each_modify fun w => (carries_onAdminPresence id status w).socketStep
  | presenceQuery id => exact Prog.each_modify fun w => (carries_onPresenceQuery id w).socketStep
  | typing id threadId customerUserId =>
    exact Prog.each_modify fun w => (carries_onTyping id threadId customerUserId w).socketStep
  | event e => exact Prog.each_modify fun w => (carries_onEvent e w).socketStep

/-- The runs of session calls and the gateway. -/
abbrev WireRun (env : Env) := Run (fun _ => serve env)

end BankDemo.Identity
