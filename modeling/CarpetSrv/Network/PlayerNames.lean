import CarpetSrv.Network.PacketRound
import Mathlib.Data.List.Forall2

/-!
# Names that the server tells apart

A client sends its name as 16-bit units, and the server keeps it as a
`std::string`, one `char` for each unit. Two names become one where they have
the same number of units with the same low bytes. On units below 0x100 the
low byte is the unit, and no two names become one.

## Implementation notes

A length field above 32767 is negative for the reader, which then takes no
unit. `taken` is what it takes of a sequence.
-/

namespace CarpetSrv.Network.Connection

open Foundation Foundation.ExceptState Packet Utils Buffer

variable {κ : Type}

/-- A 16-bit length field holds the length of the sequence, which is within the limit. -/
def Sendable (limit : Int) (us : List Short) : Prop :=
  us.length ≤ 65535 ∧ us.length ≤ limit

instance (limit : Int) (us : List Short) : Decidable (Sendable limit us) :=
  inferInstanceAs (Decidable (_ ∧ _))

/-- The units that `readString` takes of a sequence. -/
def taken (us : List Short) : List Short := if us.length ≤ 32767 then us else []

/-- The reader takes as many units of both, with the same low bytes. -/
def ReadAlike (us vs : List Short) : Prop :=
  List.Forall₂ (fun u v => u.setWidth 8 = v.setWidth 8) (taken us) (taken vs)

/-- A connection in HANDSHAKE that holds a player and finds a handshake packet
with this name next in its read buffer. -/
structure Greeting (name : List Short) (s : Connection κ) : Prop where
  status : s.status = .handshake
  player : s.player.isSome = true
  rest : ∃ version serverHost serverPort ys, serverHost.length ≤ 255 ∧
    s.readBuffer.rest =
      (ClientPacket.clientProtocol version name serverHost serverPort).body ++ ys

/-- The name of the player behind the handshake handler. -/
def givenName (env : Environment κ) (ambient : Ambient) (s : Connection κ) : Option CppString :=
  (after (handleHandshake env ambient) s).player.map Player.name

/-! ## What the reader makes of a sequence -/

section Read

variable {limit : Int} {us vs : List Short}

theorem taken_of_le (h : us.length ≤ 32767) : taken us = us := if_pos h

theorem lowBytes_eq_iff (us vs : List Short) :
    us.map (BitVec.setWidth 8) = vs.map (BitVec.setWidth 8) ↔
      List.Forall₂ (fun u v => u.setWidth 8 = v.setWidth 8) us vs := by
  rw [← List.forall₂_eq_eq_eq, List.forall₂_map_left_iff, List.forall₂_map_right_iff]

/-- A length field above 32767 is negative. -/
theorem toInt_ofNat_neg {n : Nat} (hlo : 32767 < n) (hhi : n ≤ 65535) :
    (BitVec.ofNat 16 n).toInt < 0 := by
  rw [BitVec.toInt_eq_toNat_cond, BitVec.toNat_ofNat, Nat.mod_eq_of_lt (by omega),
    if_neg (by omega)]
  omega

theorem readString_returns (h : Sendable limit us) {b : Buffer} {ys : List Byte}
    (hrest : b.rest = stringBytes us ++ ys) :
    returned (readString limit) b = some ((taken us).map (BitVec.setWidth 8)) := by
  obtain ⟨hlen, hlimit⟩ := h
  by_cases hshort : us.length ≤ 32767
  · rw [taken_of_le hshort, returned, readString_reads_of_le limit us hshort hlimit b ys hrest]
  · have hneg := toInt_ofNat_neg (Nat.not_le.mp hshort) hlen
    rw [stringBytes, List.append_assoc] at hrest
    rw [returned, readString, bind_of_ok (readShort_reads _ b _ hrest), if_neg (by omega),
      if_pos hneg, taken, if_neg hshort]
    rfl

/-- Below 0x100 a unit is its low byte. -/
theorem eq_of_lowBytes (hus : ∀ u ∈ us, u < 0x100) (hvs : ∀ v ∈ vs, v < 0x100)
    (h : List.Forall₂ (fun u v : Short => u.setWidth 8 = v.setWidth 8) us vs) : us = vs := by
  induction h with
  | nil => rfl
  | @cons u v us vs hlow _ ih =>
      have hu : u.toNat < 256 := hus u List.mem_cons_self
      have hv : v.toNat < 256 := hvs v List.mem_cons_self
      have huv : u = v := by
        have hnat := congrArg BitVec.toNat hlow
        rw [BitVec.toNat_setWidth, BitVec.toNat_setWidth] at hnat
        apply BitVec.eq_of_toNat_eq
        omega
      rw [huv, ih (fun u hm => hus u (List.mem_cons_of_mem _ hm))
        (fun v hm => hvs v (List.mem_cons_of_mem _ hm))]

/-- A handshake packet with a name within the limit gives the player the low bytes. -/
theorem givenName_of_greeting {name : List Short} {s : Connection κ} (env : Environment κ)
    (ambient : Ambient) (hname : name.length ≤ 16) (h : Greeting name s) :
    givenName env ambient s = some (name.map (BitVec.setWidth 8)) := by
  obtain ⟨version, serverHost, serverPort, ys, hhost, hrest⟩ := h.rest
  obtain ⟨player, hplayer⟩ := Option.isSome_iff_exists.mp h.player
  have hread := clientProtocol_reads version serverPort hname hhost _ _ hrest
  rw [givenName, after, handleHandshake_apply, if_pos h.status, hread]
  cases ambient.rand with
  | none =>
      simp only [exitState, versionChecked_player, hplayer]
      rfl
  | some token =>
      simp only [exitState, greeted, emit_player, addPacketToQueue_player, versionChecked_player,
        hplayer]
      rfl

end Read

/-- Two sequences within the limit decode to one string exactly when they are
alike, which on units below 0x100 they are only when they are equal. Two
clients are given one name exactly when the names they send are alike. -/
theorem names_told_apart_iff :
    (∀ (limit : Int) (us vs : List Short), Sendable limit us → Sendable limit vs →
      ∀ (b c : Buffer) (ys zs : List Byte),
        b.rest = stringBytes us ++ ys → c.rest = stringBytes vs ++ zs →
          ∃ str str', returned (readString limit) b = some str ∧
            returned (readString limit) c = some str' ∧ (str = str' ↔ ReadAlike us vs)) ∧
    (∀ us vs : List Short, us.length ≤ 32767 → vs.length ≤ 32767 →
      (∀ u ∈ us, u < 0x100) → (∀ v ∈ vs, v < 0x100) → ReadAlike us vs → us = vs) ∧
    (∀ (κ : Type) (env env' : Environment κ) (ambient ambient' : Ambient) (us vs : List Short),
      us.length ≤ 16 → vs.length ≤ 16 → ∀ s t : Connection κ, Greeting us s → Greeting vs t →
        ∃ name name', givenName env ambient s = some name ∧
          givenName env' ambient' t = some name' ∧ (name = name' ↔ ReadAlike us vs)) := by
  refine ⟨?_, ?_, ?_⟩
  · intro limit us vs hus hvs b c ys zs hb hc
    exact ⟨_, _, readString_returns hus hb, readString_returns hvs hc, lowBytes_eq_iff _ _⟩
  · intro us vs hlu hlv hus hvs h
    rw [ReadAlike, taken_of_le hlu, taken_of_le hlv] at h
    exact eq_of_lowBytes hus hvs h
  · intro κ env env' ambient ambient' us vs hlu hlv s t hs ht
    refine ⟨_, _, givenName_of_greeting env ambient hlu hs,
      givenName_of_greeting env' ambient' hlv ht, ?_⟩
    rw [ReadAlike, taken_of_le (by omega), taken_of_le (by omega)]
    exact lowBytes_eq_iff _ _

/-- A client that has sent a handshake packet with this name. -/
def namedClient (name : List Short) : Connection Byte :=
  { lastActivity := 0
    player := some {}
    readBuffer := { data := (ClientPacket.clientProtocol 51 name [] 0).body } }

theorem rest_start (bytes : List Byte) : ({ data := bytes } : Buffer).rest = bytes ++ [] :=
  (List.append_nil bytes).symm

theorem greeting_namedClient (name : List Short) : Greeting name (namedClient name) :=
  ⟨rfl, rfl, 51, [], 0, [], by decide, rest_start _⟩

theorem names_told_apart_iff_namedClient :
    (∃ str str', returned (readString 16) { data := stringBytes [0x41] } = some str ∧
      returned (readString 16) { data := stringBytes [0x42] } = some str' ∧
        (str = str' ↔ ReadAlike [0x41] [0x42])) ∧
    (ReadAlike [0x41] [0x41] → ([0x41] : List Short) = [0x41]) ∧
    ∃ name name', givenName chainEnvironment chainAmbient (namedClient [0x41]) = some name ∧
      givenName chainEnvironment chainAmbient (namedClient [0x42]) = some name' ∧
        (name = name' ↔ ReadAlike [0x41] [0x42]) := by
  obtain ⟨hread, hlatin, hgiven⟩ := names_told_apart_iff
  refine ⟨?_, ?_, ?_⟩
  · exact hread 16 [0x41] [0x42] (by decide) (by decide) _ _ [] [] (rest_start _)
      (rest_start _)
  · exact hlatin [0x41] [0x41] (by decide) (by decide) (by simp) (by simp)
  · exact hgiven Byte chainEnvironment chainEnvironment chainAmbient chainAmbient [0x41] [0x42]
      (by decide) (by decide) _ _ (greeting_namedClient _) (greeting_namedClient _)

/-- The names of one unit 0x0041 and 0x0141 are both read as "A". -/
theorem names_merged :
    ([0x41] : List Short) ≠ [0x141] ∧ Sendable 16 [0x41] ∧ Sendable 16 [0x141] ∧
      returned (readString 16) { data := stringBytes [0x41] } = some [0x41] ∧
      returned (readString 16) { data := stringBytes [0x141] } = some [0x41] ∧
      givenName chainEnvironment chainAmbient (namedClient [0x41]) = some [0x41] ∧
      givenName chainEnvironment chainAmbient (namedClient [0x141]) = some [0x41] := by
  decide +kernel

end CarpetSrv.Network.Connection
