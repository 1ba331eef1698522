import BankDemo.Properties.TokenPurpose
import BankDemo.Realtime.Calls

/-!
# Sockets and the session table

The access strategy looks at the session of a token on every request. The gateway does not look at it
at all: a socket is admitted on the signature of its token, and stays in its rooms when the session is
revoked, which only sends it a message. So a socket of a revoked session is admitted and served
(`revoked_socket_served`). The sockets obey the session table in every run in which it is the clients
that keep to it: they connect with tokens of live sessions only, and no session ends while a socket of
it is connected (`sockets_obey`).
-/

namespace BankDemo.Identity

open Crypto

/-- The session is there and not revoked. -/
def SessionOpen (sid : Uuid) (w : Realm) : Prop :=
  ∃ s, w.db.sessions.lookup sid = some s ∧ s.revokedAt = none

/-- What the step delivered. -/
def pushed (x : Step Realm WireCall) : List Delivery := x.post.delivered.drop x.pre.delivered.length

/-- The step finds the clients keeping to the session table: a socket that connects with a token which
verifies has a session that the access strategy would accept then, and a session that ends has no
socket. -/
structure Orderly (env : Env) (x : Step Realm WireCall) : Prop where
  connects : ∀ now id h, x.call = .connect now id h → h.guestToken.filter isPresent = none →
    ∀ token claims, (extractToken h).filter isPresent = some token →
      verifyAccess now token = some claims → ∃ sid s, Valid env now token x.pre claims sid s
  ends : ∀ sid, SessionOpen sid x.pre → ¬ SessionOpen sid x.post →
    ∀ id socket, x.pre.sockets.lookup id = some socket → socket.sessionId ≠ some sid

/-- Every socket of a session has an open one. -/
def Served (w : Realm) : Prop :=
  ∀ id socket sid, w.sockets.lookup id = some socket → socket.sessionId = some sid →
    SessionOpen sid w

theorem SocketStep.served {env : Env} {x : Step Realm WireCall}
    (h : SocketStep x.call x.pre x.post) (hx : Orderly env x) (hserved : Served x.pre) :
    Served x.post := by
  intro id socket sid hsocket hsid
  rcases h.1 id socket hsocket with hold | ⟨now, hs, hcall, hauth, hdb⟩
  · have hopen := hserved id socket sid hold hsid
    by_contra hclosed
    exact hx.ends sid hopen hclosed id socket hold hsid
  · rcases authenticate_cases hauth with
      ⟨hguest, token, claims, htoken, hverify, rfl⟩ | ⟨hnone, -⟩
    · obtain ⟨sid', s, hvalid⟩ := hx.connects now id hs hcall hguest token claims htoken hverify
      have hsid' : sid' = sid := Option.some.inj (hvalid.sid_eq.symm.trans hsid)
      subst hsid'
      refine ⟨s, ?_, hvalid.unrevoked⟩
      rw [hdb]
      exact hvalid.found
    · rw [hnone] at hsid
      cases hsid

section Runs

variable {env : Env} {s₀ : Realm} {tr : List (Step Realm WireCall)}
  {P : Pool Realm Error Unit WireCall} {ok : WireCall → Prop}

/-- Every step finds its sockets with open sessions. -/
theorem served_of_run (hempty : s₀.sockets = ∅) (hrun : WireRun env ok s₀ tr P)
    (horderly : ∀ x ∈ tr, Orderly env x) : ∀ x ∈ tr, Served x.pre := by
  have hsteps := (hrun.each fun _ c _ => serve_each env c).1
  have hstart : Served (reached s₀ ([] : List (Step Realm WireCall))) := by
    intro id socket sid hsocket
    rw [show (reached s₀ ([] : List (Step Realm WireCall))).sockets = ∅ from hempty] at hsocket
    cases hsocket
  have hkeeps := hrun.keeps (List.append_nil tr).symm hstart fun late x mid hsplit hpre => by
    have hx : x ∈ tr := by simp [hsplit]
    exact (hsteps x hx).served (horderly x hx) hpre
  exact fun x hx => (hkeeps.1 x hx).1

/-- **Sockets obey the session table**, in every run whose steps are all `Orderly`: a socket that is
admitted to the room of a user, of a session or of the staff presents a token that the access strategy
would accept at that moment, and whatever is sent to a room reaches sockets of unrevoked sessions
only. -/
theorem sockets_obey (env : Env) (s₀ : Realm) (hempty : s₀.sockets = ∅)
    (tr : List (Step Realm WireCall)) (P : Pool Realm Error Unit WireCall)
    (hrun : WireRun env (fun _ => True) s₀ tr P) (horderly : ∀ x ∈ tr, Orderly env x) :
    (∀ x ∈ tr, ∀ now id h socket, x.call = .connect now id h →
      authenticate now h = some socket → (∃ room ∈ socket.rooms, ∀ tid, room ≠ .supportGuest tid) →
      ∃ token p, extractToken h = some token ∧ ((validate env now token).run x.pre).1 = .ok p) ∧
    ∀ x ∈ tr, ∀ d ∈ pushed x, ∀ room, d.room = some room →
      ∃ socket, x.pre.sockets.lookup d.socketId = some socket ∧ room ∈ socket.rooms ∧
        ∀ sid, socket.sessionId = some sid → SessionOpen sid x.pre := by
  refine ⟨fun x hx now id h socket hcall hauth hroom => ?_, fun x hx d hd room hroom => ?_⟩
  · rcases authenticate_cases hauth with
      ⟨hguest, token, claims, htoken, hverify, rfl⟩ | ⟨-, tid, hrooms⟩
    · obtain ⟨sid, s, hvalid⟩ :=
        (horderly x hx).connects now id h hcall hguest token claims htoken hverify
      obtain ⟨p, hp⟩ := validate_of_valid hvalid
      exact ⟨token, p, (Option.filter_eq_some_iff.1 htoken).1, hp⟩
    · obtain ⟨room, hmem, hne⟩ := hroom
      rw [hrooms] at hmem
      exact (hne tid (List.mem_singleton.1 hmem)).elim
  · obtain ⟨-, new, hnew, hdelivered⟩ := (hrun.each fun _ c _ => serve_each env c).1 x hx
    have hmem : d ∈ new := by
      rw [pushed, hnew, List.drop_left] at hd
      exact hd
    obtain ⟨socket, hsocket, hin⟩ := hdelivered d hmem room hroom
    exact ⟨socket, hsocket, hin, fun sid => served_of_run hempty hrun horderly x hx _ socket sid
      hsocket⟩

end Runs

/-! ## Two samples -/

/-- Ann's handshake. -/
def sampleHandshake : Handshake := { bearer := some (sampleAccess 100) }

/-- Ann signs in, connects, and is told of a transaction. -/
def sampleConnected : List (Choice WireCall) :=
  [.call (.session (sampleIssue 100)), .step 0, .call (.connect 1000 7 sampleHandshake), .step 1,
    .call (.event (.transactionCreated 1)), .step 2]

/-- Ann signs in, an admin revokes her session, and she connects and is told of a transaction. -/
def sampleOutlived : List (Choice WireCall) :=
  [.call (.session (sampleIssue 100)), .step 0, .call (.session (.adminRevoke 500 100)), .step 1,
    .step 1, .step 1, .call (.connect 1000 7 sampleHandshake), .step 2,
    .call (.event (.transactionCreated 1)), .step 3]

/-- The run of a schedule from the sample realm. -/
def sampleWire (sched : List (Choice WireCall)) :
    List (Step Realm WireCall) × Pool Realm Error Unit WireCall :=
  exec (fun _ => serve sampleEnv) sampleRealm sched

theorem sample_orderly : ∀ x ∈ (sampleWire sampleConnected).1, Orderly sampleEnv x := by
  have hsteps : ∀ x ∈ (sampleWire sampleConnected).1,
      x.call = .session (sampleIssue 100) ∧ x.pre.db.sessions.entries = [] ∨
      x.call = .connect 1000 7 sampleHandshake ∧
        x.post.db.sessions.entries = x.pre.db.sessions.entries ∧
        x.pre.db.sessions.lookup 100 =
          some (issuedRow sampleEnv 0 ⟨100, 101, 102, 103⟩ ⟨1, 11, .customer⟩) ∨
      x.call = .event (.transactionCreated 1) ∧
        x.post.db.sessions.entries = x.pre.db.sessions.entries := by
    decide +kernel
  intro x hx
  have hends : x.post.db.sessions.entries = x.pre.db.sessions.entries → ∀ sid,
      SessionOpen sid x.pre → SessionOpen sid x.post := by
    intro hentries sid hopen
    unfold SessionOpen at hopen ⊢
    rw [AList.ext hentries]
    exact hopen
  rcases hsteps x hx with ⟨hcall, hnone⟩ | ⟨hcall, hsame, hs⟩ | ⟨hcall, hsame⟩
  · refine ⟨fun now id h hconnect => ?_, fun sid hopen => ?_⟩
    · rw [hcall] at hconnect
      cases hconnect
    · obtain ⟨s, hs, -⟩ := hopen
      rw [show x.pre.db.sessions = ∅ from AList.ext hnone] at hs
      cases hs
  · refine ⟨fun now id h hconnect _ token claims htoken hverify => ?_,
      fun sid hopen hclosed => (hclosed (hends hsame sid hopen)).elim⟩
    rw [hcall] at hconnect
    obtain ⟨rfl, rfl, rfl⟩ := WireCall.connect.inj hconnect
    obtain rfl : sampleAccess 100 = token := Option.some.inj htoken
    obtain ⟨-, rfl⟩ := verify_signed_iff.1 hverify
    exact ⟨100, _, hverify, rfl, hs, rfl, by decide, by decide⟩
  · refine ⟨fun now id h hconnect => ?_,
      fun sid hopen hclosed => (hclosed (hends hsame sid hopen)).elim⟩
    rw [hcall] at hconnect
    cases hconnect

theorem sockets_obey_sample :
    (sampleWire sampleConnected).2.state.delivered =
      [⟨7, some (.user (some 1)), .event "transaction.created"⟩] ∧
    ∀ x ∈ (sampleWire sampleConnected).1, ∀ d ∈ pushed x, ∀ room, d.room = some room →
      ∃ socket, x.pre.sockets.lookup d.socketId = some socket ∧ room ∈ socket.rooms ∧
        ∀ sid, socket.sessionId = some sid → SessionOpen sid x.pre :=
  ⟨by decide +kernel, (sockets_obey sampleEnv sampleRealm rfl _ _
    (exec_run sampleConnected fun _ _ => trivial) sample_orderly).2⟩

/-- A socket of a revoked session is admitted, and receives its user's events. -/
theorem revoked_socket_served :
    (¬ ∀ (env : Env) (s₀ : Realm), s₀.sockets = ∅ → ∀ (tr : List (Step Realm WireCall))
      (P : Pool Realm Error Unit WireCall), WireRun env (fun _ => True) s₀ tr P →
        ∀ x ∈ tr, ∀ now id h socket, x.call = .connect now id h →
          authenticate now h = some socket →
          (∃ room ∈ socket.rooms, ∀ tid, room ≠ .supportGuest tid) →
          ∃ token p, extractToken h = some token ∧
            ((validate env now token).run x.pre).1 = .ok p) ∧
    ¬ ∀ (env : Env) (s₀ : Realm), s₀.sockets = ∅ → ∀ (tr : List (Step Realm WireCall))
      (P : Pool Realm Error Unit WireCall), WireRun env (fun _ => True) s₀ tr P →
        ∀ x ∈ tr, ∀ d ∈ pushed x, ∀ userId, d.room = some (.user userId) →
          ∃ socket, x.pre.sockets.lookup d.socketId = some socket ∧
            ∀ sid, socket.sessionId = some sid → SessionOpen sid x.pre := by
  have hrun : WireRun sampleEnv (fun _ => True) sampleRealm (sampleWire sampleOutlived).1
      (sampleWire sampleOutlived).2 := exec_run sampleOutlived fun _ _ => trivial
  refine ⟨fun h => ?_, fun h => ?_⟩
  · have hconnected : ∃ x ∈ (sampleWire sampleOutlived).1,
        x.call = .connect 1000 7 sampleHandshake ∧
        ((validate sampleEnv 1000 (sampleAccess 100)).run x.pre).1 =
          .error (.unauthorized "Session no longer active") := by
      decide +kernel
    obtain ⟨x, hx, hcall, hrejected⟩ := hconnected
    obtain ⟨token, p, htoken, hp⟩ := h sampleEnv sampleRealm rfl _ _ hrun x hx 1000 7
      sampleHandshake _ hcall rfl ⟨.user (some 1), List.mem_cons_self, by simp⟩
    obtain rfl : sampleAccess 100 = token := Option.some.inj htoken
    rw [hrejected] at hp
    cases hp
  · have hserved : ∃ x ∈ (sampleWire sampleOutlived).1, ∃ d ∈ pushed x,
        d.room = some (.user (some 1)) ∧
        (x.pre.sockets.lookup d.socketId).map Socket.sessionId = some (some 100) ∧
        (x.pre.db.sessions.lookup 100).map (fun s => s.revokedAt.isSome) = some true := by
      decide +kernel
    obtain ⟨x, hx, d, hd, hroom, hsid, hrevoked⟩ := hserved
    obtain ⟨socket, hsocket, hopen⟩ := h sampleEnv sampleRealm rfl _ _ hrun x hx d hd (some 1) hroom
    rw [hsocket, Option.map_some] at hsid
    obtain ⟨s, hs, hnone⟩ := hopen 100 (Option.some.inj hsid)
    rw [hs, Option.map_some, hnone] at hrevoked
    cases hrevoked

end BankDemo.Identity
