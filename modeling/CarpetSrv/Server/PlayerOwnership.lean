import CarpetSrv.Server.VanillaMinecraftServer
import Mathlib.Data.List.Nodup

/-!
# Ownership of the players

The server owns its players: `handle_accept` creates them, and `tick`,
`requestKickPlayer` and `shutdown` delete them. A ledger is the server with an
entry for everything that these functions do to a player.

## Implementation notes

The functions of the ledger repeat those of the server and add the entries. The
theorems `…_server` say that they add nothing else. Other threads bring the
connections into any state at any time, also between two visits of one `tick`.
-/

namespace CarpetSrv.Server

open Foundation Network Utils

variable {κ : Type}

/-- What the server does to a player. -/
inductive LedgerEntry
  | accepted (i : PlayerId)
  /-- `tick` came to the player and found its connection alive or not. -/
  | visited (i : PlayerId) (alive : Bool)
  | keptAlive (i : PlayerId)
  | deleted (i : PlayerId)
  deriving DecidableEq

namespace LedgerEntry

def acceptance : LedgerEntry → Option PlayerId
  | accepted i => some i
  | _ => none

def deletion : LedgerEntry → Option PlayerId
  | deleted i => some i
  | _ => none

/-- The entries that one visit of `tick` leaves. -/
def ofVisit : PlayerId × Bool → List LedgerEntry
  | (i, true) => [visited i true, keptAlive i]
  | (i, false) => [visited i false, deleted i]

/-- The players that are accepted and not deleted, in the order of acceptance. -/
def owned (entries : List LedgerEntry) : List PlayerId :=
  (entries.filterMap acceptance).filter fun i => i ∉ entries.filterMap deletion

end LedgerEntry

/-- What other threads do to the connection of each player. -/
abbrev Interference (κ : Type) := PlayerId → Connection κ → Connection κ

def VanillaMinecraftServer.interfere (f : Interference κ) (srv : VanillaMinecraftServer κ) :
    VanillaMinecraftServer κ :=
  { srv with
    sessions := srv.sessions.mapIdx fun i session =>
      { session with connection := f i session.connection } }

structure Ledger (κ : Type) where
  server : VanillaMinecraftServer κ := {}
  entries : List LedgerEntry := []

namespace Ledger

open LedgerEntry

def onServer (f : VanillaMinecraftServer κ → VanillaMinecraftServer κ) (l : Ledger κ) :
    Ledger κ :=
  { l with server := f l.server }

def record (entries : List LedgerEntry) (l : Ledger κ) : Ledger κ :=
  { l with entries := l.entries ++ entries }

def deletePlayer (i : PlayerId) (l : Ledger κ) : Ledger κ :=
  (l.onServer (VanillaMinecraftServer.deletePlayer i)).record [deleted i]

def kickAndDelete (env : Environment κ) (reason : UTF16String) (player : PlayerPtr)
    (l : Ledger κ) : Ledger κ :=
  match player with
  | some i =>
      (l.onServer (VanillaMinecraftServer.onConnection i
        (Connection.disconnectWith env reason))).deletePlayer i
  | none => l

def shutdown (env : Environment κ) (l : Ledger κ) : Ledger κ :=
  let kicked := l.server.players.foldl (fun l player => l.kickAndDelete env
    (createUTF16String (literal ("Server is restarting...".toList))) player) l
  kicked.onServer fun srv => { srv with players := [], running := false, ioStopped := true }

def requestKickLoop (env : Environment κ) (player : Option Address) (reason : UTF16String)
    (l : Ledger κ) (passed : List PlayerPtr) : List PlayerPtr → Ledger κ
  | [] => l
  | p :: ps =>
      if l.server.addressOf p = player then
        (l.kickAndDelete env reason p).onServer fun srv => { srv with players := passed ++ ps }
      else requestKickLoop env player reason l (passed ++ [p]) ps

def requestKickPlayer (env : Environment κ) (player : Option Address) (reason : UTF16String)
    (l : Ledger κ) : Ledger κ :=
  requestKickLoop env player reason l [] l.server.players

/-- The loop of `tick`. Before it looks at a player, others do `between`. -/
def tickLoop (env : Environment κ) (now : Int) (between : PlayerId → Interference κ)
    (l : Ledger κ) (passed : List PlayerPtr) : List PlayerPtr → Ledger κ
  | [] => l.onServer fun srv => { srv with players := passed }
  | none :: ps => tickLoop env now between l passed ps
  | some i :: ps =>
      let found := l.onServer (VanillaMinecraftServer.interfere (between i))
      let seen := found.record [visited i (found.server.isAlive i)]
      if found.server.isAlive i then
        tickLoop env now between ((seen.onServer (VanillaMinecraftServer.onConnection i
          (Connection.sendKeepAlive env now))).record [keptAlive i]) (passed ++ [some i]) ps
      else tickLoop env now between (seen.deletePlayer i) passed ps

def tick (env : Environment κ) (now : Int) (between : PlayerId → Interference κ)
    (l : Ledger κ) : Ledger κ :=
  tickLoop env now between l [] l.server.players

def handleAccept (address : Address) (created : Int) (l : Ledger κ) : Ledger κ :=
  (l.onServer (VanillaMinecraftServer.handleAccept address created)).record
    [accepted l.server.sessions.length]

/-! ## The server of a ledger -/

theorem kickAndDelete_server (env : Environment κ) (reason : UTF16String) (player : PlayerPtr)
    (l : Ledger κ) : (l.kickAndDelete env reason player).server =
      l.server.kickAndDelete env reason player := by
  cases player <;> rfl

theorem foldl_kickAndDelete_server (env : Environment κ) (reason : UTF16String)
    (ps : List PlayerPtr) (l : Ledger κ) :
    (ps.foldl (fun l player => l.kickAndDelete env reason player) l).server =
      ps.foldl (fun srv player => srv.kickAndDelete env reason player) l.server := by
  induction ps generalizing l with
  | nil => rfl
  | cons p ps ih => rw [List.foldl_cons, List.foldl_cons, ih, kickAndDelete_server]

theorem shutdown_server (env : Environment κ) (l : Ledger κ) :
    (l.shutdown env).server = l.server.shutdown env := by
  simp only [shutdown, VanillaMinecraftServer.shutdown, onServer, foldl_kickAndDelete_server]

theorem requestKickPlayer_server (env : Environment κ) (player : Option Address)
    (reason : UTF16String) (l : Ledger κ) :
    (l.requestKickPlayer env player reason).server =
      l.server.requestKickPlayer env player reason := by
  have hloop : ∀ ps passed : List PlayerPtr,
      (requestKickLoop env player reason l passed ps).server =
        VanillaMinecraftServer.requestKickLoop env player reason l.server passed ps := by
    intro ps
    induction ps with
    | nil => exact fun _ => rfl
    | cons p ps ih =>
        intro passed
        rw [requestKickLoop, VanillaMinecraftServer.requestKickLoop]
        split_ifs
        · simp only [onServer, kickAndDelete_server]
        · exact ih _
  exact hloop _ _

theorem interfere_id (srv : VanillaMinecraftServer κ) : srv.interfere (fun _ c => c) = srv := by
  have hs : srv.sessions.mapIdx (fun _ session => session) = srv.sessions := by
    apply List.ext_getElem?
    intro i
    rw [List.getElem?_mapIdx, Option.map_id']
  simp only [VanillaMinecraftServer.interfere, hs]

/-- A tick that nothing disturbs is the tick of the server. -/
theorem tick_server (env : Environment κ) (now : Int) (l : Ledger κ) :
    (l.tick env now fun _ _ c => c).server = l.server.tick env now := by
  have hloop : ∀ (ps passed : List PlayerPtr) (l : Ledger κ),
      (tickLoop env now (fun _ _ c => c) l passed ps).server =
        VanillaMinecraftServer.tickLoop env now l.server passed ps := by
    intro ps
    induction ps with
    | nil => exact fun _ _ => rfl
    | cons p ps ih =>
        intro passed l
        cases p with
        | none => exact ih passed l
        | some i =>
            simp only [tickLoop, VanillaMinecraftServer.tickLoop, onServer, interfere_id]
            split_ifs
            · exact ih _ _
            · exact ih _ _
  exact hloop _ _ _

/-! ## Addresses and lifetimes of the sessions -/

/-- The address of each player, and whether the player is live. -/
def tags (srv : VanillaMinecraftServer κ) : List (Address × Bool) :=
  srv.sessions.map fun session => (session.address, session.live)

@[simp] theorem tags_interfere (f : Interference κ) (srv : VanillaMinecraftServer κ) :
    tags (srv.interfere f) = tags srv := by
  apply List.ext_getElem?
  intro i
  simp only [tags, VanillaMinecraftServer.interfere, List.getElem?_map, List.getElem?_mapIdx,
    Option.map_map]
  rfl

@[simp] theorem tags_onConnection (i : PlayerId) (f : Connection κ → Connection κ)
    (srv : VanillaMinecraftServer κ) : tags (srv.onConnection i f) = tags srv := by
  unfold VanillaMinecraftServer.onConnection
  cases hs : srv.sessions[i]? with
  | none => rfl
  | some session =>
      obtain ⟨hi, hget⟩ := List.getElem?_eq_some_iff.mp hs
      simp only [tags, VanillaMinecraftServer.setConnection, List.map_set]
      apply List.ext_getElem?
      intro j
      rw [List.getElem?_set]
      split_ifs with hij hlt
      · rw [← hij, List.getElem?_map, hs]
        rfl
      · rw [List.length_map] at hlt
        omega
      · rfl

theorem tags_deletePlayer (i j : PlayerId) (srv : VanillaMinecraftServer κ) :
    (tags (srv.deletePlayer i))[j]? =
      (tags srv)[j]?.map fun tag => if i = j then (tag.1, false) else tag := by
  simp only [tags, VanillaMinecraftServer.deletePlayer, List.getElem?_map, List.getElem?_modify,
    Option.map_map]
  by_cases hij : i = j
  · simp only [if_pos hij]
    cases srv.sessions[j]? <;> rfl
  · simp only [if_neg hij]
    cases srv.sessions[j]? <;> rfl

@[simp] theorem length_tags_deletePlayer (i : PlayerId) (srv : VanillaMinecraftServer κ) :
    (tags (srv.deletePlayer i)).length = (tags srv).length := by
  simp [tags, VanillaMinecraftServer.deletePlayer]

theorem addressOf_eq (srv : VanillaMinecraftServer κ) (i : PlayerId) :
    srv.addressOf (some i) = (tags srv)[i]?.map Prod.fst := by
  simp only [VanillaMinecraftServer.addressOf, Option.bind_some, tags, List.getElem?_map,
    Option.map_map]
  rfl

/-! ## The invariant -/

/-- The pointers are to the players that are accepted and not deleted, in the
order of acceptance, and no two live players share an address. -/
structure Holding (l : Ledger κ) (ps : List PlayerPtr) : Prop where
  players : ps = (owned l.entries).map some
  accepted : l.entries.filterMap acceptance = List.range (tags l.server).length
  deleted_once : (l.entries.filterMap deletion).Nodup
  deleted_accepted : ∀ i ∈ l.entries.filterMap deletion, i ∈ l.entries.filterMap acceptance
  live : ∀ (i : PlayerId) (tag : Address × Bool), (tags l.server)[i]? = some tag →
    (tag.2 = true ↔ i ∉ l.entries.filterMap deletion)
  distinct : ∀ (i j : PlayerId) (address : Address),
    (tags l.server)[i]? = some (address, true) →
      (tags l.server)[j]? = some (address, true) → i = j

variable {l l' : Ledger κ} {ps qs : List PlayerPtr} {i : PlayerId}

theorem Holding.congr (h : Holding l ps) (ht : tags l'.server = tags l.server)
    (ha : l'.entries.filterMap acceptance = l.entries.filterMap acceptance)
    (hd : l'.entries.filterMap deletion = l.entries.filterMap deletion) : Holding l' ps where
  players := by
    rw [h.players, owned, owned, ha, hd]
  accepted := by
    rw [ha, ht]
    exact h.accepted
  deleted_once := by
    rw [hd]
    exact h.deleted_once
  deleted_accepted := by
    rw [hd, ha]
    exact h.deleted_accepted
  live := by
    rw [ht, hd]
    exact h.live
  distinct := by
    rw [ht]
    exact h.distinct

theorem Holding.owned_nodup (h : Holding l ps) : (owned l.entries).Nodup := by
  unfold owned
  rw [h.accepted]
  exact List.nodup_range.filter _

theorem Holding.players_nodup (h : Holding l ps) : ps.Nodup := by
  rw [h.players]
  exact h.owned_nodup.map fun _ _ => Option.some.inj

theorem Holding.mem_owned (h : Holding l ps) (hi : some i ∈ ps) : i ∈ owned l.entries := by
  rw [h.players] at hi
  obtain ⟨j, hj, heq⟩ := List.mem_map.mp hi
  cases heq
  exact hj

/-- A held player is live at the address that its pointer holds. -/
theorem Holding.tag (h : Holding l ps) (hi : some i ∈ ps) :
    ∃ address, (tags l.server)[i]? = some (address, true) ∧
      l.server.addressOf (some i) = some address := by
  have howned := List.mem_filter.mp (h.mem_owned hi)
  have hlt : i < (tags l.server).length := by
    have hacc := howned.1
    rw [h.accepted] at hacc
    exact List.mem_range.mp hacc
  have htag := List.getElem?_eq_getElem hlt
  have hlive : (tags l.server)[i].2 = true :=
    (h.live i _ htag).mpr (of_decide_eq_true howned.2)
  refine ⟨(tags l.server)[i].1, ?_, ?_⟩
  · rw [htag, ← hlive]
  · rw [addressOf_eq, htag]
    rfl

/-- Two held pointers are equal when they compare equal. -/
theorem Holding.eq_of_addressOf (h : Holding l ps) {j : PlayerId} (hi : some i ∈ ps)
    (hj : some j ∈ ps) (ha : l.server.addressOf (some i) = l.server.addressOf (some j)) :
    i = j := by
  obtain ⟨a, hta, haa⟩ := h.tag hi
  obtain ⟨b, htb, hab⟩ := h.tag hj
  obtain rfl : a = b := Option.some.inj (haa.symm.trans (ha.trans hab))
  exact h.distinct i j a hta htb

theorem owned_delete (entries : List LedgerEntry) (i : PlayerId) :
    owned (entries ++ [deleted i]) = (owned entries).filter fun j => j ≠ i := by
  simp only [owned, List.filterMap_append, List.filter_filter]
  have ha : List.filterMap acceptance [deleted i] = [] := rfl
  have hd : List.filterMap deletion [deleted i] = [i] := rfl
  rw [ha, hd, List.append_nil]
  apply List.filter_congr
  intro j _
  simp [List.mem_append, not_or, and_comm]

/-- Deleting a held player leaves the others held. -/
theorem Holding.deletePlayer (h : Holding l (qs ++ some i :: ps)) :
    Holding (l.deletePlayer i) (qs ++ ps) := by
  have hi : some i ∈ qs ++ some i :: ps := List.mem_append_right _ List.mem_cons_self
  have howned := List.mem_filter.mp (h.mem_owned hi)
  have hnot : i ∉ l.entries.filterMap deletion := of_decide_eq_true howned.2
  have ha : (l.deletePlayer i).entries.filterMap acceptance =
      l.entries.filterMap acceptance := by
    simp [Ledger.deletePlayer, record, onServer, acceptance]
  have hd : (l.deletePlayer i).entries.filterMap deletion =
      l.entries.filterMap deletion ++ [i] := by
    simp [Ledger.deletePlayer, record, onServer, deletion]
  have htag : ∀ j, (tags (l.deletePlayer i).server)[j]? =
      (tags l.server)[j]?.map fun tag => if i = j then (tag.1, false) else tag :=
    fun j => tags_deletePlayer i j l.server
  constructor
  · have hmap := h.players
    have hnodup := h.owned_nodup
    obtain ⟨as, bs, heq, has, hbs⟩ := List.map_eq_append_iff.mp hmap.symm
    obtain ⟨b, cs, rfl, hb, hcs⟩ := List.map_eq_cons_iff.mp hbs
    cases hb
    rw [heq] at hnodup
    obtain ⟨hne, _⟩ := List.nodup_cons.mp (List.perm_middle.nodup hnodup)
    have hrest : owned (l.deletePlayer i).entries = as ++ cs := by
      refine (owned_delete l.entries i).trans ?_
      rw [heq, List.filter_append, List.filter_cons_of_neg (by simp), ← List.filter_append]
      apply List.filter_eq_self.mpr
      intro j hj
      rw [decide_eq_true_iff]
      rintro rfl
      exact hne hj
    rw [hrest, List.map_append, has, hcs]
  · rw [ha, h.accepted]
    exact congrArg List.range (length_tags_deletePlayer i l.server).symm
  · rw [hd]
    exact List.nodup_append.mpr ⟨h.deleted_once, List.nodup_singleton i, fun a ha b hb hab =>
      hnot (List.mem_singleton.mp hb ▸ hab ▸ ha)⟩
  · intro j hj
    rw [ha]
    rw [hd] at hj
    rcases List.mem_append.mp hj with hold | hnew
    · exact h.deleted_accepted j hold
    · exact List.mem_singleton.mp hnew ▸ howned.1
  · intro j tag hj
    rw [htag j] at hj
    obtain ⟨old, hold, rfl⟩ := Option.map_eq_some_iff.mp hj
    have hlive := h.live j old hold
    rw [hd, List.mem_append, not_or, List.mem_singleton, ← hlive]
    by_cases hij : i = j
    · simp [hij]
    · simp [hij, Ne.symm hij]
  · have hold : ∀ (j : PlayerId) (address : Address),
        (tags (l.deletePlayer i).server)[j]? = some (address, true) →
        (tags l.server)[j]? = some (address, true) := by
      intro j address hj
      rw [htag j] at hj
      obtain ⟨old, hold, hnew⟩ := Option.map_eq_some_iff.mp hj
      by_cases hij : i = j
      · rw [if_pos hij] at hnew
        cases hnew
      · rw [if_neg hij] at hnew
        rw [hold, hnew]
    intro j k address hj hk
    exact h.distinct j k address (hold j address hj) (hold k address hk)

/-! ## The functions keep the invariant -/

variable (env : Environment κ)

theorem Holding.onServer {f : VanillaMinecraftServer κ → VanillaMinecraftServer κ}
    (h : Holding l ps) (ht : tags (f l.server) = tags l.server) : Holding (l.onServer f) ps :=
  h.congr ht rfl rfl

theorem Holding.record (entries : List LedgerEntry) (h : Holding l ps)
    (ha : entries.filterMap acceptance = []) (hd : entries.filterMap deletion = []) :
    Holding (l.record entries) ps := by
  have ht : tags (l.record entries).server = tags l.server := rfl
  refine h.congr ht ?_ ?_
  · simp only [Ledger.record, List.filterMap_append, ha, List.append_nil]
  · simp only [Ledger.record, List.filterMap_append, hd, List.append_nil]

theorem Holding.kickAndDelete (reason : UTF16String) (h : Holding l (qs ++ some i :: ps)) :
    Holding (l.kickAndDelete env reason (some i)) (qs ++ ps) :=
  (h.onServer (tags_onConnection ..)).deletePlayer

theorem kickAndDelete_entries (reason : UTF16String) :
    (l.kickAndDelete env reason (some i)).entries = l.entries ++ [deleted i] := rfl

/-- Kicking and deleting all held players leaves none held. -/
theorem foldl_kickAndDelete_spec (reason : UTF16String) {ids : List PlayerId}
    (h : Holding l (ids.map some)) :
    Holding ((ids.map some).foldl (fun l player => l.kickAndDelete env reason player) l) [] ∧
      ((ids.map some).foldl (fun l player => l.kickAndDelete env reason player) l).entries =
        l.entries ++ ids.map deleted := by
  induction ids generalizing l with
  | nil => exact ⟨h, (List.append_nil _).symm⟩
  | cons i ids ih =>
      have hfirst : Holding l ([] ++ some i :: ids.map some) := h
      obtain ⟨hheld, hentries⟩ := ih (hfirst.kickAndDelete env reason)
      refine ⟨hheld, hentries.trans ?_⟩
      rw [kickAndDelete_entries, List.append_assoc]
      rfl

theorem shutdown_spec (h : Holding l l.server.players) {ids : List PlayerId}
    (hids : l.server.players = ids.map some) :
    Holding (l.shutdown env) (l.shutdown env).server.players ∧
      (l.shutdown env).entries = l.entries ++ ids.map deleted ∧
      (l.shutdown env).server.players = [] := by
  rw [hids] at h
  obtain ⟨hheld, hentries⟩ := foldl_kickAndDelete_spec env
    (createUTF16String (literal ("Server is restarting...".toList))) h
  rw [← hids] at hheld hentries
  refine ⟨?_, hentries, rfl⟩
  exact hheld.congr rfl rfl rfl

theorem tickLoop_spec (now : Int) (between : PlayerId → Interference κ) {ids : List PlayerId}
    (h : Holding l (qs ++ ids.map some)) :
    ∃ visits : List (PlayerId × Bool), visits.map Prod.fst = ids ∧
      Holding (tickLoop env now between l qs (ids.map some))
        (tickLoop env now between l qs (ids.map some)).server.players ∧
      (tickLoop env now between l qs (ids.map some)).entries =
        l.entries ++ visits.flatMap ofVisit ∧
      (tickLoop env now between l qs (ids.map some)).server.players =
        qs ++ (visits.filter Prod.snd).map fun v => some v.1 := by
  induction ids generalizing l qs with
  | nil =>
      rw [List.map_nil, List.append_nil] at h
      refine ⟨[], rfl, h.onServer rfl, (List.append_nil _).symm, (List.append_nil _).symm⟩
  | cons i ids ih =>
      rw [List.map_cons, tickLoop]
      have hfound : Holding (l.onServer (VanillaMinecraftServer.interfere (between i)))
          (qs ++ some i :: ids.map some) := h.onServer (tags_interfere ..)
      split_ifs with halive
      · have hseen := (hfound.record [visited i true] rfl rfl).onServer
          (tags_onConnection i (Connection.sendKeepAlive env now) _)
        have hkept := hseen.record [keptAlive i] rfl rfl
        rw [List.append_cons] at hkept
        obtain ⟨visits, hids, hheld, hentries, hplayers⟩ := ih hkept
        rw [halive]
        refine ⟨(i, true) :: visits, congrArg (i :: ·) hids, hheld, ?_, ?_⟩
        · rw [hentries]
          simp [Ledger.record, Ledger.onServer, ofVisit]
        · rw [hplayers]
          simp
      · rw [Bool.not_eq_true] at halive
        have hgone := (hfound.record [visited i false] rfl rfl).deletePlayer
        obtain ⟨visits, hids, hheld, hentries, hplayers⟩ := ih hgone
        rw [halive]
        refine ⟨(i, false) :: visits, congrArg (i :: ·) hids, hheld, ?_, ?_⟩
        · rw [hentries]
          simp [Ledger.record, Ledger.deletePlayer, Ledger.onServer, ofVisit]
        · rw [hplayers]
          simp

/-- The loop of `requestKickPlayer` finds no such player, or deletes the one it finds. -/
theorem requestKickLoop_spec (player : Option Address) (reason : UTF16String)
    (h : Holding l (qs ++ ps)) (hqs : ∀ p ∈ qs, l.server.addressOf p ≠ player) :
    (requestKickLoop env player reason l qs ps = l ∧
      ∀ p ∈ qs ++ ps, l.server.addressOf p ≠ player) ∨
    ∃ i, some i ∈ qs ++ ps ∧ l.server.addressOf (some i) = player ∧
      Holding (requestKickLoop env player reason l qs ps)
        (requestKickLoop env player reason l qs ps).server.players ∧
      (requestKickLoop env player reason l qs ps).entries = l.entries ++ [deleted i] ∧
      (requestKickLoop env player reason l qs ps).server.players = (qs ++ ps).erase (some i) := by
  induction ps generalizing qs with
  | nil =>
      rw [List.append_nil] at h ⊢
      exact .inl ⟨rfl, hqs⟩
  | cons p ps ih =>
      rw [requestKickLoop]
      split_ifs with hp
      · right
        have hmem : p ∈ qs ++ p :: ps := List.mem_append_right _ List.mem_cons_self
        have hsome := hmem
        rw [h.players] at hsome
        obtain ⟨i, _, rfl⟩ := List.mem_map.mp hsome
        refine ⟨i, hmem, hp, (h.kickAndDelete env reason).onServer rfl,
          kickAndDelete_entries env reason, ?_⟩
        have hnot : some i ∉ qs := fun hi => hqs _ hi hp
        rw [List.erase_append_right _ hnot, List.erase_cons_head]
        rfl
      · rw [List.append_cons qs p ps] at h ⊢
        apply ih h
        intro q hq
        rcases List.mem_append.mp hq with hold | hnew
        · exact hqs q hold
        · rw [List.mem_singleton.mp hnew]
          exact hp

theorem handleAccept_spec {address : Address} (created : Int) (h : Holding l l.server.players)
    (ha : ∀ session ∈ l.server.sessions, session.live = true → session.address ≠ address) :
    Holding (l.handleAccept address created) (l.handleAccept address created).server.players := by
  have hlen : (tags l.server).length = l.server.sessions.length := List.length_map _
  have htags : tags (l.handleAccept address created).server =
      tags l.server ++ [(address, true)] := by
    simp [tags, Ledger.handleAccept, Ledger.record, Ledger.onServer,
      VanillaMinecraftServer.handleAccept]
  have hacc : (l.handleAccept address created).entries.filterMap acceptance =
      l.entries.filterMap acceptance ++ [l.server.sessions.length] := by
    simp [Ledger.handleAccept, Ledger.record, Ledger.onServer, acceptance]
  have hdel : (l.handleAccept address created).entries.filterMap deletion =
      l.entries.filterMap deletion := by
    simp [Ledger.handleAccept, Ledger.record, Ledger.onServer, deletion]
  have hnew : l.server.sessions.length ∉ l.entries.filterMap deletion := by
    intro hmem
    have hold := h.deleted_accepted _ hmem
    rw [h.accepted, hlen] at hold
    exact Nat.lt_irrefl _ (List.mem_range.mp hold)
  have hcases : ∀ (j : Nat) (tag : Address × Bool),
      (tags l.server ++ [(address, true)])[j]? = some tag →
      (tags l.server)[j]? = some tag ∨ (j = l.server.sessions.length ∧ tag = (address, true)) := by
    intro j tag hj
    rw [List.getElem?_append] at hj
    split_ifs at hj with hlt
    · exact .inl hj
    · right
      obtain ⟨hz, htag⟩ := List.getElem?_eq_some_iff.mp hj
      obtain rfl : j = (tags l.server).length := by
        rw [List.length_singleton] at hz
        omega
      refine ⟨hlen, ?_⟩
      simpa using htag.symm
  have hfree : ∀ j : PlayerId, (tags l.server)[j]? ≠ some (address, true) := by
    intro j hj
    rw [tags, List.getElem?_map, Option.map_eq_some_iff] at hj
    obtain ⟨session, hs, htag⟩ := hj
    exact ha session (List.mem_of_getElem? hs) (congrArg Prod.snd htag) (congrArg Prod.fst htag)
  constructor
  · have howned : owned (l.handleAccept address created).entries =
        owned l.entries ++ [l.server.sessions.length] := by
      rw [owned, owned, hacc, hdel, List.filter_append]
      congr 1
      exact List.filter_cons_of_pos (decide_eq_true hnew)
    rw [howned, List.map_append, ← h.players]
    rfl
  · rw [hacc, htags, h.accepted, List.length_append, List.length_singleton, List.range_succ, hlen]
  · rw [hdel]
    exact h.deleted_once
  · intro j hj
    rw [hdel] at hj
    rw [hacc]
    exact List.mem_append_left _ (h.deleted_accepted j hj)
  · intro j tag hj
    rw [htags] at hj
    rw [hdel]
    rcases hcases j tag hj with hold | ⟨rfl, rfl⟩
    · exact h.live j tag hold
    · exact ⟨fun _ => hnew, fun _ => rfl⟩
  · intro j k other hj hk
    rw [htags] at hj hk
    rcases hcases j _ hj with hjo | ⟨rfl, hja⟩
    · rcases hcases k _ hk with hko | ⟨rfl, hka⟩
      · exact h.distinct j k other hjo hko
      · rw [hka] at hjo
        exact absurd hjo (hfree j)
    · rcases hcases k _ hk with hko | ⟨rfl, _⟩
      · rw [hja] at hko
        exact absurd hko (hfree k)
      · rfl

end Ledger

/-! ## Runs -/

/-- The atomic steps of the server, and what other threads do in between. -/
inductive LedgerEvent (κ : Type)
  | handleAccept (address : Address) (created : Int)
  | tick (now : Int) (between : PlayerId → Interference κ)
  | requestKickPlayer (player : Option Address) (reason : UTF16String)
  | shutdown
  | interfere (f : Interference κ)

namespace Ledger

open LedgerEntry

variable {env : Environment κ} {l l' : Ledger κ} {i : PlayerId}

/-- One event. The allocator gives out no address of a live player. -/
def step (env : Environment κ) (l : Ledger κ) : LedgerEvent κ → Option (Ledger κ)
  | .handleAccept address created =>
      if ∀ session ∈ l.server.sessions, session.live = true → session.address ≠ address then
        some (l.handleAccept address created)
      else none
  | .tick now between => some (l.tick env now between)
  | .requestKickPlayer player reason => some (l.requestKickPlayer env player reason)
  | .shutdown => some (l.shutdown env)
  | .interfere f => some (l.onServer (VanillaMinecraftServer.interfere f))

/-- What an event that leaves these entries does to the vector of players. -/
def Account (l l' : Ledger κ) (entries : List LedgerEntry) : LedgerEvent κ → Prop
  | .handleAccept _ _ =>
      entries = [accepted l.server.sessions.length] ∧
        l'.server.players = l.server.players ++ [some l.server.sessions.length]
  | .tick _ _ => ∃ visits : List (PlayerId × Bool),
      l.server.players = visits.map (fun v => some v.1) ∧
        entries = visits.flatMap ofVisit ∧
        l'.server.players = (visits.filter Prod.snd).map fun v => some v.1
  | .requestKickPlayer player _ =>
      (entries = [] ∧ l'.server.players = l.server.players ∧
        ∀ p ∈ l.server.players, l.server.addressOf p ≠ player) ∨
      ∃ i, entries = [deleted i] ∧ l'.server.players = l.server.players.erase (some i) ∧
        ∀ p, p ∈ l.server.players ∧ l.server.addressOf p = player ↔ p = some i
  | .shutdown => ∃ ids : List PlayerId, l.server.players = ids.map some ∧
      entries = ids.map deleted ∧ l'.server.players = []
  | .interfere _ => entries = [] ∧ l'.server.players = l.server.players

theorem step_account {e : LedgerEvent κ} (hstep : step env l e = some l')
    (h : Holding l l.server.players) : Holding l' l'.server.players ∧
      ∃ entries, l'.entries = l.entries ++ entries ∧ Account l l' entries e := by
  cases e with
  | handleAccept address created =>
      simp only [step] at hstep
      split_ifs at hstep with ha
      cases hstep
      exact ⟨handleAccept_spec created h ha, _, rfl, rfl, rfl⟩
  | tick now between =>
      cases hstep
      have hall : Holding l ([] ++ (owned l.entries).map some) := h.players ▸ h
      have hloop := tickLoop_spec env now between hall
      rw [← h.players] at hloop
      obtain ⟨visits, hids, hheld, hentries, hplayers⟩ := hloop
      refine ⟨hheld, _, hentries, visits, ?_, rfl, hplayers⟩
      rw [h.players, ← hids, List.map_map]
      rfl
  | requestKickPlayer player reason =>
      cases hstep
      have hall : Holding l ([] ++ l.server.players) := h
      rcases requestKickLoop_spec env player reason hall nofun with
        ⟨hsame, hnone⟩ | ⟨i, hi, ha, hheld, hentries, hplayers⟩
      · have hl : l.requestKickPlayer env player reason = l := hsame
        rw [hl]
        exact ⟨h, [], (List.append_nil _).symm, .inl ⟨rfl, rfl, hnone⟩⟩
      · refine ⟨hheld, [deleted i], hentries, .inr ⟨i, rfl, hplayers, ?_⟩⟩
        intro p
        constructor
        · rintro ⟨hp, hpa⟩
          have hsome := hp
          rw [h.players] at hsome
          obtain ⟨j, _, rfl⟩ := List.mem_map.mp hsome
          rw [h.eq_of_addressOf hp hi (hpa.trans ha.symm)]
        · rintro rfl
          exact ⟨hi, ha⟩
  | shutdown =>
      cases hstep
      obtain ⟨hheld, hentries, hplayers⟩ := shutdown_spec env h h.players
      exact ⟨hheld, _, hentries, _, h.players, rfl, hplayers⟩
  | interfere f =>
      cases hstep
      exact ⟨h.onServer (tags_interfere ..), [], (List.append_nil _).symm, rfl, rfl⟩

/-- No event both accepts a player and deletes one. -/
theorem Account.accepts_or_deletes {entries : List LedgerEntry} {e : LedgerEvent κ}
    (h : Account l l' entries e) :
    entries.filterMap acceptance = [] ∨ entries.filterMap deletion = [] := by
  cases e with
  | handleAccept address created =>
      obtain ⟨rfl, _⟩ := h
      exact .inr rfl
  | tick now between =>
      obtain ⟨visits, _, rfl, _⟩ := h
      left
      have hvisit : ∀ v, (ofVisit v).filterMap acceptance = [] := by
        rintro ⟨i, alive⟩
        cases alive <;> rfl
      rw [List.filterMap_flatMap]
      exact List.flatMap_eq_nil_iff.mpr fun v _ => hvisit v
  | requestKickPlayer player reason =>
      left
      rcases h with ⟨rfl, _⟩ | ⟨i, rfl, _⟩
      · rfl
      · rfl
  | shutdown =>
      obtain ⟨ids, _, rfl, _⟩ := h
      left
      rw [List.filterMap_map]
      exact List.filterMap_eq_nil_iff.mpr fun _ _ => rfl
  | interfere f =>
      obtain ⟨rfl, _⟩ := h
      exact .inl rfl

/-- An event deletes exactly the players that it takes out of the vector. -/
theorem deleted_mem_iff {e : LedgerEvent κ} {entries : List LedgerEntry}
    (h : Holding l l.server.players) (h' : Holding l' l'.server.players)
    (hentries : l'.entries = l.entries ++ entries) (hacc : Account l l' entries e) :
    i ∈ entries.filterMap deletion ↔ some i ∈ l.server.players ∧ some i ∉ l'.server.players := by
  have hold : some i ∈ l.server.players ↔ i ∈ l.entries.filterMap acceptance ∧
      i ∉ l.entries.filterMap deletion := by
    rw [h.players, List.mem_map_of_injective fun _ _ => Option.some.inj]
    simp only [owned, List.mem_filter, decide_eq_true_eq]
  have hnew : some i ∈ l'.server.players ↔ i ∈ l'.entries.filterMap acceptance ∧
      i ∉ l'.entries.filterMap deletion := by
    rw [h'.players, List.mem_map_of_injective fun _ _ => Option.some.inj]
    simp only [owned, List.mem_filter, decide_eq_true_eq]
  have honce := h'.deleted_once
  have hsub := h'.deleted_accepted i
  rw [hentries, List.filterMap_append] at honce
  rw [hentries, List.filterMap_append, List.filterMap_append, List.mem_append,
    List.mem_append] at hnew hsub
  constructor
  · intro hi
    refine ⟨hold.mpr ⟨?_, ?_⟩, fun hmem => (hnew.mp hmem).2 (.inr hi)⟩
    · rcases hacc.accepts_or_deletes with hnone | hnone
      · rw [hnone] at hsub
        exact (hsub (.inr hi)).resolve_right List.not_mem_nil
      · rw [hnone] at hi
        exact absurd hi List.not_mem_nil
    · intro hdel
      exact (List.nodup_append.mp honce).2.2 i hdel i hi rfl
  · rintro ⟨hin, hout⟩
    by_contra hi
    obtain ⟨ha, hd⟩ := hold.mp hin
    exact hout (hnew.mpr ⟨.inl ha, not_or.mpr ⟨hd, hi⟩⟩)

/-- In every run the vector lists the players accepted and not deleted, in the
order of acceptance, no player is deleted twice, and every further event
deletes exactly the players that it removes. -/
theorem player_ownership {es : List (LedgerEvent κ)}
    (run : GuardedRun (step env) Unguarded {} es l) :
    l.server.players = (owned l.entries).map some ∧ none ∉ l.server.players ∧
      l.server.players.Nodup ∧ (l.entries.filterMap acceptance).Nodup ∧
      (l.entries.filterMap deletion).Nodup ∧
      (∀ i ∈ l.entries.filterMap deletion, i ∈ l.entries.filterMap acceptance) ∧
      ∀ e l', step env l e = some l' → ∃ entries, l'.entries = l.entries ++ entries ∧
        Account l l' entries e ∧
        ∀ i, i ∈ entries.filterMap deletion ↔
          some i ∈ l.server.players ∧ some i ∉ l'.server.players := by
  have h : Holding l l.server.players := by
    apply run.invariant (fun _ _ _ _ hstep h => (step_account hstep h).1)
    exact ⟨rfl, rfl, List.nodup_nil, nofun, nofun, nofun⟩
  refine ⟨h.players, ?_, h.players_nodup, ?_, h.deleted_once, h.deleted_accepted, ?_⟩
  · rw [h.players]
    simp
  · rw [h.accepted]
    exact List.nodup_range
  · intro e l' hstep
    obtain ⟨h', entries, hentries, hacc⟩ := step_account hstep h
    exact ⟨entries, hentries, hacc, fun i => deleted_mem_iff h h' hentries hacc⟩

/-- Two players join, the first connection dies, a tick clears it away, and a
third player at its address is kicked. -/
def turnoverEvents : List (LedgerEvent Byte) :=
  [.handleAccept 4096 0, .handleAccept 8192 0,
    .interfere fun i c => if i = 0 then c.disconnect else c,
    .tick 1 fun _ _ c => c,
    .handleAccept 4096 1,
    .requestKickPlayer (some 4096) [0x62]]

theorem player_ownership_turnover : ∃ l : Ledger Byte,
    GuardedRun (step chainEnvironment) Unguarded {} turnoverEvents l ∧
      l.entries = [accepted 0, accepted 1, visited 0 false, deleted 0, visited 1 true,
        keptAlive 1, accepted 2, deleted 2] ∧
      l.server.players = (owned l.entries).map some := by
  obtain ⟨l, hrun, hentries⟩ := exists_guardedRun (step chainEnvironment) Unguarded
    ({} : Ledger Byte) turnoverEvents (fun l => l.entries = [accepted 0, accepted 1,
      visited 0 false, deleted 0, visited 1 true, keptAlive 1, accepted 2, deleted 2])
    (by decide +kernel)
  exact ⟨l, hrun, hentries, (player_ownership hrun).1⟩

end Ledger

end CarpetSrv.Server
