import EspSmoltcp.Glue.Ipv4Text
import EspSmoltcp.Stack.Datagrams

/-!
# Stack/Ntp — the SNTP client of `ntp.c`

The seconds of a timestamp count from 1900 and are a 32-bit number in network order, so they start again at 0 in
February 2036.  `ntp_task` loads them as a little-endian number, swaps the bytes and subtracts
`NTP_UNIX_OFFSET` in 64 bits.

* **The bytes are the right ones** (`secs_of_carries`): the swap undoes the load.
* **The clock is set to the time of the reply up to the turn of the era** (`ntpRound_sets_iff`), and 2³² seconds
  before it afterwards, where the subtraction wraps.
-/

namespace EspSmoltcp

variable {S : Smoltcp}

/-! ## The packet -/

/-- `sizeof(sntp_pkt_t)`. -/
def sizeofSntpPkt : ℕ := 48

/-- `offsetof(sntp_pkt_t, tx_ts)`. -/
def offsetofTxTs : ℕ := 40

/-- The request: `li_vn_mode` is `(0 << 6) | (4 << 3) | 3`, the rest is zero. -/
def sntpRequest : Bytes := 0x23 :: List.replicate 47 0

/-- A `uint64_t` in memory, loaded by a little-endian target. -/
def loadLe64 (b : Bytes) : UInt64 := .ofNat ((b.take 8).foldr (fun x acc => x.toNat + 2 ^ 8 * acc) 0)

/-- `__builtin_bswap32`. -/
def bswap32 (x : UInt32) : UInt32 :=
  let (a, b, c, d) := toLeBytes x
  fromBeBytes a b c d

/-- `NTP_UNIX_OFFSET`: the seconds from 1900 to 1970. -/
def ntpUnixOffset : UInt64 := 2208988800

/-- `secs`. -/
def replySecs (rsp : Bytes) : UInt32 :=
  bswap32 (loadLe64 (rsp.drop offsetofTxTs) &&& 0xFFFFFFFF).toUInt32

/-- `unix_secs`. -/
def unixSecs (rsp : Bytes) : UInt64 := (replySecs rsp).toUInt64 - ntpUnixOffset

/-- `(time_t)unix_secs`; `time_t` is signed and has 64 bits. -/
def tvSec (rsp : Bytes) : ℤ := (unixSecs rsp).toInt64.toInt

/-! ## The task -/

/-- The request of a round of `ntp_task`, which the task does not look back at. -/
def sendRequest (s : NetSock) (serverBe : UInt32) (w : World S) : Int × World S :=
  netUdpSendto s sntpRequest serverBe 123 w

/-- A round of `ntp_task`: what it calls `settimeofday` with, seconds and microseconds, if it does. -/
def ntpRound (cfg : Config) (s : NetSock) (serverBe : UInt32) : Code S (Option (ℤ × ℤ)) := do
  let _ ← atomically (sendRequest s serverBe)
  let (n, msg) ← netUdpRecvfrom cfg s sizeofSntpPkt 5000
  if sizeofSntpPkt ≤ n then pure (some (tvSec ((msg.map UdpRecv.data).getD []), 0)) else pure none

/-- The round that starts in `w` receives this reply, of full length. -/
def Replied (cfg : Config) (s : NetSock) (serverBe : UInt32) (w : World S) (sched : List (Moment (World S)))
    (reply : Bytes) (sys : Sys (World S) (Event S)) : Prop :=
  ∃ n msg, (atomically (sendRequest s serverBe) >>= fun _ => netUdpRecvfrom cfg s sizeofSntpPkt 5000).run w sched
      = (some (n, some msg), sys) ∧ sizeofSntpPkt ≤ n ∧ msg.data = reply

/-- The reply has these seconds of Unix time in its transmit timestamp, in network order and modulo 2³². -/
def CarriesTime (reply : Bytes) (t : ℕ) : Prop :=
  ∃ a b c d rest, reply.drop offsetofTxTs = a :: b :: c :: d :: rest ∧
    (fromBeBytes a b c d).toNat = (t + 2208988800) % 2 ^ 32

section Rounds

variable {cfg : Config} {s : NetSock} {serverBe : UInt32} {w : World S} {sched : List (Moment (World S))}
  {reply : Bytes} {sys : Sys (World S) (Event S)} {t : ℕ}

/-- A round with a reply of full length sets the clock to what it reads there. -/
theorem ntpRound_of_replied (h : Replied cfg s serverBe w sched reply sys) :
    (ntpRound cfg s serverBe).run w sched = (some (some (tvSec reply, 0)), sys) := by
  obtain ⟨n, msg, hrecv, hn, rfl⟩ := h
  have hsteps : ntpRound cfg s serverBe
      = (atomically (sendRequest s serverBe) >>= fun _ => netUdpRecvfrom (S := S) cfg s sizeofSntpPkt 5000)
        >>= fun r => if sizeofSntpPkt ≤ r.1 then pure (some (tvSec ((r.2.map UdpRecv.data).getD []), 0))
          else pure none := by
    rw [Thread.bind_assoc]
    rfl
  rw [Code.run, hsteps, Thread.bind_of_some hrecv, if_pos hn]
  rfl

/-- The low half of the load is the first four bytes. -/
theorem loadLe64_cons (a b c d : UInt8) (rest : Bytes) :
    (loadLe64 (a :: b :: c :: d :: rest) &&& 0xFFFFFFFF).toUInt32 = fromLeBytes a b c d := by
  have ha := a.toNat_lt
  have hb := b.toNat_lt
  have hc := c.toNat_lt
  have hd := d.toNat_lt
  rw [← UInt32.toNat_inj, toNat_fromLeBytes, UInt64.toNat_toUInt32, UInt64.toNat_and]
  change ((loadLe64 _).toNat &&& (2 ^ 32 - 1)) % 2 ^ 32 = _
  rw [Nat.and_two_pow_sub_one_eq_mod, loadLe64, UInt64.toNat_ofNat']
  simp only [List.take_succ_cons, List.foldr_cons]
  omega

theorem bswap32_fromLeBytes (a b c d : UInt8) : bswap32 (fromLeBytes a b c d) = fromBeBytes a b c d := by
  rw [bswap32, toLeBytes_fromLeBytes]

/-- **The seconds read are those of the reply.** -/
theorem secs_of_carries (h : CarriesTime reply t) : (replySecs reply).toNat = (t + 2208988800) % 2 ^ 32 := by
  obtain ⟨a, b, c, d, rest, hdrop, hsecs⟩ := h
  rw [replySecs, hdrop, loadLe64_cons, bswap32_fromLeBytes, hsecs]

/-- The subtraction, in 64 bits. -/
theorem toNat_unixSecs (h : CarriesTime reply t) :
    (unixSecs reply).toNat = (2 ^ 64 - 2208988800 + (t + 2208988800) % 2 ^ 32) % 2 ^ 64 := by
  rw [unixSecs, UInt64.toNat_sub, UInt32.toNat_toUInt64, secs_of_carries h]
  rfl

/-- A `uint64_t` as a signed number. -/
theorem toInt_toInt64 (x : UInt64) :
    x.toInt64.toInt = if 2 * x.toNat < 2 ^ 64 then (x.toNat : ℤ) else x.toNat - 2 ^ 64 :=
  BitVec.toInt_eq_toNat_cond x.toBitVec

/-- **Up to the turn of the era the clock is set to the time, afterwards to 2³² seconds before it.** -/
theorem tvSec_eq (h : CarriesTime reply t) (ht : t + 2208988800 < 2 ^ 32 + 2 ^ 31) :
    tvSec reply = if t + 2208988800 < 2 ^ 32 then (t : ℤ) else t - 2 ^ 32 := by
  have hunix := toNat_unixSecs h
  rw [tvSec, toInt_toInt64]
  split_ifs <;> omega

/-- The subtraction wraps below zero when the seconds have started again. -/
theorem replySecs_lt_iff (h : CarriesTime reply t) (ht : t + 2208988800 < 2 ^ 32 + 2 ^ 31) :
    (replySecs reply).toUInt64 < ntpUnixOffset ↔ ¬ t + 2208988800 < 2 ^ 32 := by
  rw [UInt64.lt_iff_toNat_lt, UInt32.toNat_toUInt64, secs_of_carries h]
  change _ < 2208988800 ↔ _
  omega

/-- **A round with a reply of full length sets the clock to the time it carries if and only if that is before
the turn of the era**, and exactly then the subtraction does not wrap. -/
theorem ntpRound_sets_iff (hreply : Replied cfg s serverBe w sched reply sys) (h : CarriesTime reply t)
    (ht : t < 2 ^ 32 + 2 ^ 31 - 2208988800) :
    (((ntpRound cfg s serverBe).run w sched).1 = some (some ((t : ℤ), 0)) ↔ t + 2208988800 < 2 ^ 32) ∧
    (¬ (replySecs reply).toUInt64 < ntpUnixOffset ↔ t + 2208988800 < 2 ^ 32) := by
  have hlt : t + 2208988800 < 2 ^ 32 + 2 ^ 31 := by omega
  have hset := tvSec_eq h hlt
  refine ⟨?_, by rw [replySecs_lt_iff h hlt, not_not]⟩
  rw [ntpRound_of_replied hreply, Option.some.injEq, Option.some.injEq, Prod.mk.injEq, and_iff_left rfl, hset]
  split_ifs with hera
  · exact iff_of_true rfl hera
  · exact iff_of_false (by omega) hera

end Rounds

/-! ### The first second of the new era -/

/-- A reply whose transmit timestamp has these four bytes of seconds. -/
def sntpReply (a b c d : UInt8) : Bytes :=
  0x24 :: List.replicate 39 0 ++ [a, b, c, d] ++ List.replicate 4 0

/-- It has arrived at the socket. -/
def replyWaiting (reply : Bytes) : World .reference := udpSock [⟨reply, ⟨.ipv4 ⟨10, 0, 0, 1⟩, 123⟩⟩]

theorem replied_first_second : ∃ sys, Replied .default ⟨1⟩ 0x0100000A (replyWaiting (sntpReply 0 0 0 0))
    [idle 0, idle 0] (sntpReply 0 0 0 0) sys :=
  ⟨_, 48, _, rfl, by decide, rfl⟩

/-- **At the turn of the era the clock is set to the year 1900**: the reply says 2085978496, the task sets
2³² less. -/
theorem era_sets_1900 : ∃ sys,
    Replied .default ⟨1⟩ 0x0100000A (replyWaiting (sntpReply 0 0 0 0)) [idle 0, idle 0] (sntpReply 0 0 0 0) sys ∧
    CarriesTime (sntpReply 0 0 0 0) 2085978496 ∧ 2085978496 < 2 ^ 32 + 2 ^ 31 - 2208988800 ∧
    ((ntpRound .default ⟨1⟩ 0x0100000A).run (replyWaiting (sntpReply 0 0 0 0)) [idle 0, idle 0]).1
      = some (some (-2208988800, 0)) := by
  obtain ⟨sys, hreply⟩ := replied_first_second
  refine ⟨sys, hreply, ⟨0, 0, 0, 0, _, rfl, rfl⟩, by decide, ?_⟩
  rw [ntpRound_of_replied hreply]
  rfl

/-- The second before, it is set to the time. -/
theorem ntpRound_last_second :
    ((ntpRound .default ⟨1⟩ 0x0100000A).run (replyWaiting (sntpReply 255 255 255 255)) [idle 0, idle 0]).1
      = some (some (2085978495, 0)) := by
  have hreply : Replied .default ⟨1⟩ 0x0100000A (replyWaiting (sntpReply 255 255 255 255)) [idle 0, idle 0]
      (sntpReply 255 255 255 255) _ := ⟨48, _, rfl, by decide, rfl⟩
  have htime : CarriesTime (sntpReply 255 255 255 255) 2085978495 := ⟨255, 255, 255, 255, _, rfl, rfl⟩
  exact (ntpRound_sets_iff hreply htime (by decide)).1.mpr (by decide)

end EspSmoltcp
