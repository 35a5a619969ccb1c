import CarpetSrv.Network.AuthenticationGate
import CarpetSrv.Network.OutgoingStream
import Mathlib.Logic.Relation

/-!
# The login state machine

A connection starts in HANDSHAKE and goes to PING, or through LOGIN to PLAY.
Each status has one history of queued packets, apart from kicks, and the
cipher is installed on the way into PLAY. A handler that throws leaves its
connection in the status it was called in, so a client that repeats a packet
repeats no answer.

## Implementation notes

Queued packets and installed ciphers are observed as one list, which has one
shape in each status. The packets that the rest of the server may queue are
not part of the login, so the runs are those of `Unassisted` events.
-/

namespace CarpetSrv.Network.Connection

open Foundation Foundation.ExceptState Packet Utils

variable {κ : Type}

/-! ## Transitions and answers -/

/-- The moves between statuses. -/
inductive Transition : Status → Status → Prop
  | ping : Transition .handshake .ping
  | login : Transition .handshake .login
  | play : Transition .login .play

/-- A queued packet other than a kick. -/
def answered : Effect → Option Packet
  | .enqueued (.kick _) => none
  | .enqueued p => some p
  | _ => none

/-- The packets that have been queued in each status, apart from kicks. -/
def AnsweredIn : Status → List Packet → Prop
  | .handshake, ps | .ping, ps => ps = []
  | .login, ps => ∃ token, ps = [.serverAuthData ⟨token⟩]
  | .play, ps => ∃ token,
      ps = [.serverAuthData ⟨token⟩, .login {}, .spawnPoint ⟨0, 0, 0⟩, .playerPosition {}]

/-- A cipher is there exactly in PLAY, at most one was ever installed, and the
queued packets are those of the status. -/
structure LoggedInByStatus (s : Connection κ) : Prop where
  cipher_iff : s.cipher.isSome = true ↔ s.status = .play
  installed_once : (observe installedKey s).length ≤ 1
  answers : AnsweredIn s.status (observe answered s)

/-! ## The invariant -/

inductive LoginEvent
  | queued (p : Packet)
  | installed (key : List Byte)
  deriving DecidableEq

def loginEvent : Effect → Option LoginEvent
  | .cipherInstalled key => some (.installed key)
  | e => (answered e).map .queued

/-- What has been queued and installed in each status. -/
def LoginProgress (s : Connection κ) : Prop :=
  match s.status with
  | .handshake | .ping => s.cipher.isSome = false ∧ observe loginEvent s = []
  | .login => s.cipher.isSome = false ∧
      ∃ token, observe loginEvent s = [.queued (.serverAuthData ⟨token⟩)]
  | .play => s.cipher.isSome = true ∧ ∃ token key, observe loginEvent s =
      [.queued (.serverAuthData ⟨token⟩), .installed key, .queued (.login {}),
        .queued (.spawnPoint ⟨0, 0, 0⟩), .queued (.playerPosition {})]

theorem LoginProgress.congr {s t : Connection κ} (h : LoginProgress s) (hst : t.status = s.status)
    (hc : t.cipher.isSome = s.cipher.isSome) (hobs : observe loginEvent t = observe loginEvent s) :
    LoginProgress t := by
  unfold LoginProgress at h ⊢
  rw [hst, hc, hobs]
  exact h

theorem LoginProgress.of_create (now : Int) : LoginProgress (create now : Connection κ) :=
  ⟨rfl, rfl⟩

theorem WritesOnly.cipher_isSome {s t : Connection κ} (h : WritesOnly s t) :
    t.cipher.isSome = s.cipher.isSome := by
  have hd := congrArg Option.isSome h.decryptCtx
  rwa [Option.isSome_map, Option.isSome_map] at hd

theorem loginEvent_of_isReading {e : Effect} (h : e.isReading = true) : loginEvent e = none := by
  cases e <;> first | rfl | cases h

section Methods

variable {env : Environment κ} {s : Connection κ}

theorem LoginProgress.emit {e : Effect} (he : loginEvent e = none) (h : LoginProgress s) :
    LoginProgress (emit e s) :=
  h.congr rfl rfl (observe_emit_none he s)

theorem LoginProgress.usePlayer (f : Player → Player) (h : LoginProgress s) :
    LoginProgress (usePlayer f s) :=
  h.congr (usePlayer_status f s) (by rw [usePlayer_cipher]) (observe_usePlayer f s rfl)

theorem LoginProgress.disconnect (h : LoginProgress s) : LoginProgress (disconnect s) :=
  h.congr rfl rfl (observe_emit_none rfl _)

theorem disconnectWith_cipher_isSome (reason : UTF16String) :
    (disconnectWith env reason s).cipher.isSome = s.cipher.isSome := by
  unfold disconnectWith
  dsimp only
  rw [usePlayer_cipher]
  exact (addPacketToQueue_writesOnly env _ _).cipher_isSome

theorem LoginProgress.disconnectWith (reason : UTF16String) (h : LoginProgress s) :
    LoginProgress (disconnectWith env reason s) := by
  apply h.congr (disconnectWith_status ..) (disconnectWith_cipher_isSome reason)
  rw [observe_disconnectWith env reason s (fun _ _ => rfl) rfl]
  simp [loginEvent, answered]

theorem LoginProgress.handleWrite (failed : Bool) (size : Nat) (h : LoginProgress s) :
    LoginProgress (handleWrite failed size s) :=
  h.congr (handleWrite_status ..) (by rw [handleWrite_cipher])
    (observe_handleWrite rfl rfl failed size s)

theorem LoginProgress.versionChecked (p : ClientProtocolPacket) (h : LoginProgress s) :
    LoginProgress (versionChecked env p s) :=
  versionChecked_keeps LoginProgress.usePlayer (fun _ _ => h.disconnectWith _) h

theorem LoginProgress.tokenChecked (p : SharedKeyPacket) (h : LoginProgress s) :
    LoginProgress (tokenChecked p s) :=
  tokenChecked_keeps (fun _ => h.disconnect) h

/-! ## The three transitions -/

theorem LoginProgress.pinged (p : ServerPingPacket) (hst : s.status = .handshake)
    (h : LoginProgress s) : LoginProgress (pinged env p s) := by
  obtain ⟨hc, hobs⟩ : s.cipher.isSome = false ∧ observe loginEvent s = [] := by
    simpa only [LoginProgress, hst] using h
  have hp := observe_pinged env s (f := loginEvent) (fun _ _ => rfl) p
  rw [hobs] at hp
  exact ⟨(addPacketToQueue_writesOnly env _ s).cipher_isSome.trans hc, hp⟩

theorem LoginProgress.greeted (token : Vector Byte 4) (p : ClientProtocolPacket)
    (hst : s.status = .handshake) (h : LoginProgress s) :
    LoginProgress (greeted env token p s) := by
  obtain ⟨hc, hobs⟩ : (Connection.versionChecked env p s).cipher.isSome = false ∧
      observe loginEvent (Connection.versionChecked env p s) = [] := by
    have hv : LoginProgress (Connection.versionChecked env p s) := h.versionChecked p
    simpa only [LoginProgress, versionChecked_status, hst] using hv
  have hg := observe_greeted env s (f := loginEvent) (fun _ _ => rfl) token p
  rw [hobs] at hg
  refine ⟨?_, token.toList, hg⟩
  exact (addPacketToQueue_writesOnly env _ _).cipher_isSome.trans hc

theorem LoginProgress.loggedIn (cipher : AESCipher κ) (p : SharedKeyPacket)
    (hst : s.status = .login) (h : LoginProgress s) : LoginProgress (loggedIn env cipher p s) := by
  obtain ⟨_, token, hobs⟩ : s.cipher.isSome = false ∧
      ∃ token, observe loginEvent s = [.queued (.serverAuthData ⟨token⟩)] := by
    simpa only [LoginProgress, hst] using h
  have hl := observe_loggedIn env s (f := loginEvent) (fun _ _ => rfl) cipher p
  rw [observe_tokenChecked s rfl, hobs] at hl
  refine ⟨?_, token, p.sharedSecret, hl⟩
  calc
    (Connection.loggedIn env cipher p s).cipher.isSome = _ :=
      (addPacketToQueue_writesOnly env _ _).cipher_isSome
    _ = _ := (addPacketToQueue_writesOnly env _ _).cipher_isSome
    _ = _ := (addPacketToQueue_writesOnly env _ _).cipher_isSome
    _ = true := rfl

end Methods

theorem loginProgress_runClosed (env : Environment κ) : RunClosed env AnyPacket LoginProgress where
  readBuffer _ h := h
  pendingRead _ h := h
  decryptCtx _ hc h := h.congr rfl (by rw [hc]; rfl) rfl
  emit he h := h.emit (loginEvent_of_isReading he)
  pinged hst _ h := h.pinged _ hst
  unseeded _ _ _ h := h.versionChecked _
  greeted hst _ _ h := h.greeted _ _ hst
  badKey _ _ _ h := h.tokenChecked _
  loggedIn hst _ _ h := h.loggedIn _ _ hst
  informed _ h := (h.usePlayer _).emit rfl
  keptAlive _ h := LoginProgress.emit rfl h
  positioned _ h := (h.usePlayer _).emit rfl
  attach _ _ h := h
  completeWrite _ h := LoginProgress.emit rfl h
  abandonWrite h := h
  handleWrite _ _ h := h.handleWrite _ _
  disconnect h := h.disconnect
  disconnectWith _ h := h.disconnectWith _

/-! ## What the history says about each status -/

theorem answered_eq (e : Effect) : answered e = (loginEvent e).bind fun
    | .queued p => some p
    | .installed _ => none := by
  cases e with
  | enqueued p => cases p <;> rfl
  | _ => rfl

theorem installedKey_eq (e : Effect) : installedKey e = (loginEvent e).bind fun
    | .queued _ => none
    | .installed key => some key := by
  cases e with
  | enqueued p => cases p <;> rfl
  | _ => rfl

theorem LoginProgress.loggedInByStatus {s : Connection κ} (h : LoginProgress s) :
    LoggedInByStatus s := by
  have ha := observe_bind answered_eq s
  have hk := observe_bind installedKey_eq s
  cases hst : s.status with
  | handshake | ping =>
      obtain ⟨hc, hobs⟩ : s.cipher.isSome = false ∧ observe loginEvent s = [] := by
        simpa only [LoginProgress, hst] using h
      rw [hobs] at ha hk
      refine ⟨by simp [hc, hst], by simp [hk], ?_⟩
      rw [hst, ha]
      rfl
  | login =>
      obtain ⟨hc, token, hobs⟩ : s.cipher.isSome = false ∧
          ∃ token, observe loginEvent s = [.queued (.serverAuthData ⟨token⟩)] := by
        simpa only [LoginProgress, hst] using h
      rw [hobs] at ha hk
      refine ⟨by simp [hc, hst], by simp [hk], ?_⟩
      rw [hst, ha]
      exact ⟨token, rfl⟩
  | play =>
      obtain ⟨hc, token, key, hobs⟩ : s.cipher.isSome = true ∧
          ∃ token key, observe loginEvent s =
            [.queued (.serverAuthData ⟨token⟩), .installed key, .queued (.login {}),
              .queued (.spawnPoint ⟨0, 0, 0⟩), .queued (.playerPosition {})] := by
        simpa only [LoginProgress, hst] using h
      rw [hobs] at ha hk
      refine ⟨by simp [hc, hst], by simp [hk], ?_⟩
      rw [hst, ha]
      exact ⟨token, rfl⟩

/-! ## Along a run -/

/-- The status has moved along the transitions since it was `base`. -/
def MovedFrom (base : Status) (s : Connection κ) : Prop :=
  Relation.ReflTransGen Transition base s.status

theorem MovedFrom.congr {base : Status} {s t : Connection κ} (h : MovedFrom base s)
    (hst : t.status = s.status) : MovedFrom base t := by
  unfold MovedFrom at h ⊢
  rwa [hst]

theorem movedFrom_runClosed (env : Environment κ) (base : Status) :
    RunClosed env AnyPacket (MovedFrom base) where
  readBuffer _ h := h
  pendingRead _ h := h
  decryptCtx _ _ h := h
  emit _ h := h
  pinged hst _ h := Relation.ReflTransGen.tail h (by rw [hst]; exact .ping)
  unseeded _ _ _ h := h.congr (versionChecked_status ..)
  greeted hst _ _ h := Relation.ReflTransGen.tail h (by rw [hst]; exact .login)
  badKey _ _ _ h := h.congr (tokenChecked_status ..)
  loggedIn hst _ _ h := Relation.ReflTransGen.tail h (by rw [hst]; exact .play)
  informed _ h := h.congr (usePlayer_status ..)
  keptAlive _ h := h
  positioned _ h := h.congr (usePlayer_status ..)
  attach _ _ h := h
  completeWrite _ h := h
  abandonWrite h := h
  handleWrite _ _ h := h.congr (handleWrite_status ..)
  disconnect h := h
  disconnectWith _ h := h.congr (disconnectWith_status ..)

/-- The connection is in PLAY, and these ciphers have been installed. -/
structure PlaysWith (keys : List (List Byte)) (s : Connection κ) : Prop where
  status : s.status = .play
  installed : observe installedKey s = keys

theorem PlaysWith.absurd {keys : List (List Byte)} {s : Connection κ} {status : Status}
    {P : Prop} (h : PlaysWith keys s) (hst : s.status = status) (hne : status ≠ .play) : P :=
  (hne (hst.symm.trans h.status)).elim

theorem PlaysWith.congr {keys : List (List Byte)} {s t : Connection κ} (h : PlaysWith keys s)
    (hst : t.status = s.status) (hobs : observe installedKey t = observe installedKey s) :
    PlaysWith keys t :=
  ⟨hst.trans h.status, hobs.trans h.installed⟩

theorem playsWith_runClosed (env : Environment κ) (keys : List (List Byte)) :
    RunClosed env AnyPacket (PlaysWith keys) where
  readBuffer _ h := h.congr rfl rfl
  pendingRead _ h := h.congr rfl rfl
  decryptCtx _ _ h := h.congr rfl rfl
  emit {_ e} he h := by
    refine h.congr rfl (observe_emit_none ?_ _)
    cases e <;> first | rfl | cases he
  pinged hst _ h := h.absurd hst (by decide)
  unseeded hst _ _ h := h.absurd hst (by decide)
  greeted hst _ _ h := h.absurd hst (by decide)
  badKey hst _ _ h := h.absurd hst (by decide)
  loggedIn hst _ _ h := h.absurd hst (by decide)
  informed _ h := h.congr (usePlayer_status ..)
    ((observe_emit_none rfl _).trans (observe_usePlayer _ _ rfl))
  keptAlive _ h := h.congr rfl (observe_emit_none rfl _)
  positioned _ h := h.congr (usePlayer_status ..)
    ((observe_emit_none rfl _).trans (observe_usePlayer _ _ rfl))
  attach _ _ h := h.congr rfl rfl
  completeWrite _ h := h.congr rfl (observe_emit_none rfl _)
  abandonWrite h := h.congr rfl rfl
  handleWrite _ _ h := h.congr (handleWrite_status ..) (observe_handleWrite rfl rfl ..)
  disconnect h := h.congr rfl (observe_emit_none rfl _)
  disconnectWith _ h := by
    apply h.congr (disconnectWith_status ..)
    rw [observe_disconnectWith _ _ _ (fun _ _ => rfl) rfl]
    simp [installedKey]

section Run

variable {env : Environment κ} {s t : Connection κ} {es : List ConnectionEvent}

/-- What every event that is not queued from outside keeps, a run keeps. -/
theorem RunClosed.run {I : Connection κ → Prop} (h : RunClosed env AnyPacket I)
    (run : GuardedRun (Connection.step env) (fun _ e => Unassisted e) s es t) (hs : I s) : I t := by
  apply run.invariant _ hs
  intro s e t hu hstep hs
  apply h.step (eachRead_anyPacket env s e) _ hstep hs
  rintro packet rfl
  exact hu.elim

/-- In every run the cipher is there exactly in PLAY and is installed once,
the queued packets are those of the status, and from every state on the status
moves along the transitions and an installed cipher stays. -/
theorem login_state_machine_of_run {now : Int}
    (run : GuardedRun (Connection.step env) (fun _ e => Unassisted e) (create now) es s) :
    LoggedInByStatus s ∧ ∀ fs t,
      GuardedRun (Connection.step env) (fun _ e => Unassisted e) s fs t →
        Relation.ReflTransGen Transition s.status t.status ∧
          (s.cipher.isSome = true →
            t.cipher.isSome = true ∧ observe installedKey t = observe installedKey s) := by
  have hprogress : ∀ {fs : List ConnectionEvent} {t : Connection κ},
      GuardedRun (Connection.step env) (fun _ e => Unassisted e) (create now) fs t →
        LoggedInByStatus t := fun run =>
    ((loginProgress_runClosed env).run run (.of_create now)).loggedInByStatus
  refine ⟨hprogress run, fun fs t next => ⟨?_, fun hc => ?_⟩⟩
  · exact (movedFrom_runClosed env s.status).run next .refl
  · have hplay := (hprogress run).cipher_iff.mp hc
    have hplays := (playsWith_runClosed env (observe installedKey s)).run next ⟨hplay, rfl⟩
    exact ⟨(hprogress (run.append next)).cipher_iff.mpr hplays.status, hplays.installed⟩

end Run

/-- A client that logs in and then shakes hands and sends its key once more. -/
theorem login_state_machine_of_run_repeated : ∃ s : Connection Byte,
    GuardedRun (step chainEnvironment) (fun _ e => Unassisted e) (create 0)
      (loginEvents 51 [1, 2, 3, 4] ++ (loginEvents 51 [1, 2, 3, 4]).tail) s ∧
      s.status = .play ∧ LoggedInByStatus s := by
  obtain ⟨s, hrun, hs⟩ := exists_guardedRun (step chainEnvironment) (fun _ e => Unassisted e)
    (create 0) (loginEvents 51 [1, 2, 3, 4] ++ (loginEvents 51 [1, 2, 3, 4]).tail)
    (fun s => s.status = .play) (by decide +kernel)
  exact ⟨s, hrun, hs, (login_state_machine_of_run hrun).1⟩

end CarpetSrv.Network.Connection
