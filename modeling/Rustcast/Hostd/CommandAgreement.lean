import Rustcast.Host.Commands
import Rustcast.Hostd.Commands

/-!
# hostd and the agent on the same command stream

hostd cuts a relay's byte stream into raw commands and forwards them; the agent parses the
forwarded bytes again with a table of its own. The two tables differ in the login response
(`0x08`) and the hello (`0x0A`). hostd takes both for length-prefixed commands and, behind a
login, forwards them. The agent takes their type byte for an unknown command of one byte and
goes on with the length. `agent_agrees_iff` says
that this is the only difference.
-/

namespace Rustcast.Hostd

open Bytes Host RawCommand CommandEnv

variable {Event : Type}

/-- What a raw command asks the agent to do; the agent has no meaning for the others. -/
def RawCommand.meaning (cmd : RawCommand) : Option Command :=
  let body := cmd.bytes.drop 1
  if cmd.ty = cmdIdr then some .idr
  else if cmd.ty = cmdInput then some (.input (body.drop 4))
  else if cmd.ty = cmdBitrate then some (.bitrate (beNat body))
  else if cmd.ty = cmdViewers then some (.viewers (beNat body))
  else if cmd.ty = cmdQuality then some (.quality (body.getD 0 0) (body.getD 1 0))
  else if cmd.ty = cmdResolution then
    some (.resolution { width := beNat (body.take 2), height := beNat (body.drop 2) })
  else if cmd.ty = cmdClipboard then some (.clipboard (body.drop 4))
  else none

/-- The payload is within the agent's caps (hostd's own is checked by its reader). -/
def RawCommand.WithinCaps (env : CommandEnv Event) (cmd : RawCommand) : Prop :=
  (cmd.ty = cmdInput → cmd.bytes.length ≤ 5 + maxInputBytes) ∧
    (cmd.ty = cmdClipboard → cmd.bytes.length ≤ 5 + env.clipboardCap)

def starts : Nat → List RawCommand → List Nat
  | _, [] => []
  | offset, cmd :: cmds => offset :: starts (offset + cmd.bytes.length) cmds

/-- The agent does what was forwarded, and takes nothing else for a command. -/
def AgentAgrees (env : CommandEnv Event) (relay : List UInt8) : Prop :=
  let trace := env.readAll 0 (forwardedBytes relay)
  trace.dispatched = (forwarded relay).filterMap RawCommand.meaning ∧
    trace.effects = ((forwarded relay).filterMap RawCommand.meaning).flatMap env.deliver ∧
    ∀ offset ∈ trace.opcodes, offset ∈ starts 0 (forwarded relay)

/-! ## One command -/

def Known (ty : UInt8) : Prop := ty ≠ cmdLoginResponse ∧ ty ≠ cmdHello

variable {env : CommandEnv Event} {cmds : List RawCommand} {cmd : RawCommand} {offset o : Nat}

/-- The agent reads a forwarded command of a known type as a whole. -/
theorem readCommand_known (env : CommandEnv Event) (hwell : cmd.WellFormed) (hlock : cmd.ty ≠ cmdLock)
    (hcaps : cmd.WithinCaps env) (hknown : Known cmd.ty) (rest : List UInt8) :
    env.readCommand (cmd.bytes ++ rest) = some (cmd.meaning, rest) := by
  obtain ⟨ty, bytes⟩ := cmd
  obtain ⟨shape, hspec, hshape⟩ := hwell
  obtain ⟨hinput, hclipboard⟩ := hcaps
  obtain ⟨hlogin, hhello⟩ := hknown
  simp only at hspec hshape hinput hclipboard hlogin hhello hlock ⊢
  unfold commandFrameSpec at hspec
  split at hspec
  · -- bare
    rename_i hty
    subst hty
    cases hspec
    obtain rfl : bytes = [0x01] := hshape
    rfl
  split at hspec
  · -- four bytes: bitrate, viewers, resolution
    rename_i hty
    cases hspec
    obtain ⟨body, hlen, rfl⟩ := hshape
    have hread : readExact 4 (body ++ rest) = some (body, rest) := by
      rw [← hlen]
      exact readExact_append body rest
    rcases hty with rfl | rfl | rfl
    · simp [readCommand, meaning, cmdIdr, cmdInput, cmdBitrate, readLen_append hlen]
    · simp [readCommand, meaning, cmdIdr, cmdInput, cmdBitrate, cmdViewers, readLen_append hlen]
    · simp [readCommand, meaning, cmdIdr, cmdInput, cmdBitrate, cmdViewers,
        cmdQuality, cmdResolution, hread]
  split at hspec
  · -- two bytes: quality
    rename_i hty
    subst hty
    cases hspec
    obtain ⟨body, hlen, rfl⟩ := hshape
    have hread : readExact 2 (body ++ rest) = some (body, rest) := by
      rw [← hlen]
      exact readExact_append body rest
    simp [readCommand, meaning, cmdIdr, cmdInput, cmdBitrate, cmdViewers, cmdQuality, hread]
  split at hspec
  · -- length-prefixed: input and clipboard; the other three are excluded
    rename_i hty
    cases hspec
    obtain ⟨lenBuf, payload, hlen, hpayload, rfl⟩ := hshape
    have hdrop : (lenBuf ++ payload).drop 4 = payload := by
      rw [← hlen]
      exact List.drop_left
    rcases hty with rfl | rfl | hty | hty | hty
    · have hcap : payload.length ≤ maxInputBytes := by
        have := hinput rfl
        simp only [List.length_cons, List.length_append, hlen] at this
        omega
      simp [readCommand, meaning, cmdIdr, cmdInput, hdrop, readPayload_append hlen hpayload hcap]
    · have hcap : payload.length ≤ env.clipboardCap := by
        have := hclipboard rfl
        simp only [List.length_cons, List.length_append, hlen] at this
        omega
      simp [readCommand, meaning, cmdIdr, cmdInput, cmdBitrate, cmdViewers,
        cmdQuality, cmdResolution, cmdClipboard, hdrop, readPayload_append hlen hpayload hcap]
    · exact absurd hty hlogin
    · exact absurd hty hlock
    · exact absurd hty hhello
  · cases hspec

/-- Of a login response or a hello the agent takes the type byte only. -/
theorem readCommand_unknown (env : CommandEnv Event) (hwell : cmd.WellFormed) (hunknown : ¬Known cmd.ty)
    (rest : List UInt8) :
    ∃ body, 4 ≤ body.length ∧ cmd.bytes = cmd.ty :: body ∧
      env.readCommand (cmd.bytes ++ rest) = some (none, body ++ rest) := by
  have hty : cmd.ty = cmdLoginResponse ∨ cmd.ty = cmdHello := by
    by_cases h : cmd.ty = cmdLoginResponse
    · exact .inl h
    · exact .inr (Decidable.not_not.mp fun hh => hunknown ⟨h, hh⟩)
  obtain ⟨ty, bytes⟩ := cmd
  obtain ⟨shape, hspec, hshape⟩ := hwell
  simp only at hty hspec hshape ⊢
  have hprefixed : shape = .lengthPrefixed := by
    rcases hty with rfl | rfl
    · exact Option.some.inj (hspec.symm.trans (by decide))
    · exact Option.some.inj (hspec.symm.trans (by decide))
  subst hprefixed
  obtain ⟨lenBuf, payload, hlen, -, rfl⟩ := hshape
  refine ⟨lenBuf ++ payload, ?_, rfl, ?_⟩
  · simp only [List.length_append, hlen]
    omega
  · rcases hty with rfl | rfl
    · rfl
    · rfl

/-! ## The whole stream -/

theorem readAll_known (env : CommandEnv Event) (offset : Nat)
    (hcmds : ∀ cmd ∈ cmds, (cmd.WellFormed ∧ cmd.ty ≠ cmdLock) ∧ cmd.WithinCaps env ∧ Known cmd.ty) :
    env.readAll offset (cmds.flatMap bytes) =
      { opcodes := starts offset cmds
        dispatched := cmds.filterMap meaning
        effects := (cmds.filterMap meaning).flatMap env.deliver } := by
  induction cmds generalizing offset with
  | nil => rfl
  | cons cmd cmds ih =>
    obtain ⟨⟨hwell, hlock⟩, hcaps, hknown⟩ := hcmds cmd List.mem_cons_self
    have htail := ih (offset + cmd.bytes.length) fun c hc => hcmds c (List.mem_cons_of_mem _ hc)
    have hread := readCommand_known env hwell hlock hcaps hknown (cmds.flatMap bytes)
    have hoffset : (cmd.bytes ++ cmds.flatMap bytes).length -
        (cmds.flatMap bytes).length = cmd.bytes.length := by simp
    rw [List.flatMap_cons, readAll_of_readCommand offset hread, hoffset, htail]
    cases hmeaning : cmd.meaning <;> simp [hmeaning, starts]

theorem le_of_mem_opcodes {fuel : Nat} {bytes : List UInt8}
    (h : o ∈ (env.readCommands fuel offset bytes).opcodes) : offset ≤ o := by
  induction fuel generalizing offset bytes with
  | zero => cases h
  | succ fuel ih =>
    cases bytes with
    | nil => cases h
    | cons byte bytes =>
      simp only [readCommands] at h
      cases hread : env.readCommand (byte :: bytes) with
      | none =>
        simp only [hread, List.mem_singleton] at h
        omega
      | some result =>
        simp only [hread, List.mem_cons] at h
        rcases h with rfl | h
        · exact Nat.le_refl _
        · have := ih h
          omega

theorem le_of_mem_starts (h : o ∈ starts offset cmds) : offset ≤ o := by
  induction cmds generalizing offset with
  | nil => cases h
  | cons cmd cmds ih =>
    rcases List.mem_cons.mp h with rfl | h
    · exact Nat.le_refl _
    · have := ih h
      omega

theorem mem_opcodes_of_ne_nil (env : CommandEnv Event) (offset : Nat) {bytes : List UInt8}
    (hne : bytes ≠ []) : offset ∈ (env.readAll offset bytes).opcodes := by
  cases bytes with
  | nil => exact absurd rfl hne
  | cons byte bytes =>
    show offset ∈ (env.readCommands (bytes.length + 1) offset (byte :: bytes)).opcodes
    simp only [readCommands]
    cases env.readCommand (byte :: bytes) <;> simp

/-- Behind a forwarded login response or hello, a byte of its length is taken for an opcode. -/
theorem exists_opcode_not_start (offset : Nat)
    (hcmds : ∀ cmd ∈ cmds, (cmd.WellFormed ∧ cmd.ty ≠ cmdLock) ∧ cmd.WithinCaps env)
    (hbad : ∃ cmd ∈ cmds, ¬Known cmd.ty) :
    ∃ o ∈ (env.readAll offset (cmds.flatMap bytes)).opcodes, o ∉ starts offset cmds := by
  induction cmds generalizing offset with
  | nil =>
    obtain ⟨cmd, hcmd, -⟩ := hbad
    cases hcmd
  | cons cmd cmds ih =>
    obtain ⟨⟨hwell, hlock⟩, hcaps⟩ := hcmds cmd List.mem_cons_self
    rw [List.flatMap_cons]
    by_cases hknown : Known cmd.ty
    · -- the command itself is read as a whole, so the bad one is further on
      have hread := readCommand_known env hwell hlock hcaps hknown (cmds.flatMap bytes)
      have hoffset : (cmd.bytes ++ cmds.flatMap bytes).length -
          (cmds.flatMap bytes).length = cmd.bytes.length := by simp
      have hlater : ∃ c ∈ cmds, ¬Known c.ty := by
        obtain ⟨c, hc, hcbad⟩ := hbad
        rcases List.mem_cons.mp hc with rfl | hc
        · exact absurd hknown hcbad
        · exact ⟨c, hc, hcbad⟩
      obtain ⟨o, ho, hstart⟩ := ih (offset + cmd.bytes.length)
        (fun c hc => hcmds c (List.mem_cons_of_mem _ hc)) hlater
      rw [readAll_of_readCommand offset hread, hoffset]
      refine ⟨o, List.mem_cons_of_mem _ ho, ?_⟩
      have hge : offset + cmd.bytes.length ≤ o := le_of_mem_opcodes ho
      have hpos := hwell.length_pos
      rw [starts, List.mem_cons, not_or]
      exact ⟨by omega, hstart⟩
    · obtain ⟨body, hlen, hbytes, hread⟩ := readCommand_unknown env hwell hknown (cmds.flatMap bytes)
      rw [readAll_of_readCommand offset hread]
      have hoffset : (cmd.bytes ++ cmds.flatMap bytes).length -
          (body ++ cmds.flatMap bytes).length = 1 := by
        simp only [hbytes, List.length_append, List.length_cons]
        omega
      rw [hoffset]
      refine ⟨offset + 1, List.mem_cons_of_mem _ (mem_opcodes_of_ne_nil _ _ ?_), ?_⟩
      · intro hnil
        have hbody : body = [] := (List.append_eq_nil_iff.mp hnil).1
        rw [hbody] at hlen
        cases hlen
      · rw [starts, List.mem_cons, not_or]
        refine ⟨by omega, fun hmem => ?_⟩
        have hge := le_of_mem_starts hmem
        rw [hbytes, List.length_cons] at hge
        omega

/-- Within the caps, the agent agrees with hostd if and only if no login response and no hello
is forwarded. -/
theorem agent_agrees_iff (env : CommandEnv Event) (relay : List UInt8)
    (hcaps : ∀ cmd ∈ forwarded relay, cmd.WithinCaps env) :
    AgentAgrees env relay ↔ ∀ cmd ∈ forwarded relay, Known cmd.ty := by
  have hcmds : ∀ cmd ∈ forwarded relay, (cmd.WellFormed ∧ cmd.ty ≠ cmdLock) ∧ cmd.WithinCaps env :=
    fun cmd hcmd => ⟨fromRelay_wellFormed cmd hcmd, hcaps cmd hcmd⟩
  constructor
  · rintro ⟨-, -, hopcodes⟩
    by_contra hbad
    push Not at hbad
    obtain ⟨o, ho, hstart⟩ := exists_opcode_not_start 0 hcmds hbad
    exact hstart (hopcodes o ho)
  · intro hknown
    have htrace := readAll_known env 0 fun cmd hcmd =>
      ⟨(hcmds cmd hcmd).1, (hcmds cmd hcmd).2, hknown cmd hcmd⟩
    unfold AgentAgrees forwardedBytes
    rw [htrace]
    exact ⟨rfl, rfl, fun o ho => ho⟩

/-- An agent that decodes no JSON, for streams in which the payloads do not matter. -/
def plainEnv : CommandEnv Unit :=
  { decodeInput := fun _ => none
    decodeClipboard := fun _ => none
    clipboardEnabled := false
    clipboardMaxBytes := 1024 * 1024 }

/-- A login response with a one-byte payload. -/
def strayLoginResponse : List UInt8 := [0x08, 0, 0, 0, 1, 0x01]

/-- Behind a forwarded login response, the agent takes the last byte of its length and its
payload for two IDR requests. -/
theorem agent_misreads_login_response :
    (∀ cmd ∈ forwarded strayLoginResponse, cmd.WithinCaps plainEnv) ∧
      ¬AgentAgrees plainEnv strayLoginResponse ∧
      (plainEnv.readAll 0 (forwardedBytes strayLoginResponse)).dispatched = [.idr, .idr] := by
  have hcaps : ∀ cmd ∈ forwarded strayLoginResponse, cmd.WithinCaps plainEnv := by
    unfold WithinCaps
    decide +kernel
  refine ⟨hcaps, fun hagrees => ?_, by decide +kernel⟩
  have hdispatched := hagrees.1
  revert hdispatched
  decide +kernel

/-- A stream with commands of every shape, up to a lock command. -/
def mixedCommands : List UInt8 :=
  [0x01, 0x03, 0, 0, 0x0f, 0xa0, 0x05, 2, 60, 0x02, 0, 0, 0, 2, 0x7b, 0x7d, 0x06, 5, 0, 2, 0xd0,
    0x09, 0, 0, 0, 0]

theorem agent_agrees_on_mixedCommands :
    (∀ cmd ∈ forwarded mixedCommands, cmd.WithinCaps plainEnv) ∧
      (forwarded mixedCommands).map RawCommand.ty = [0x01, 0x03, 0x05, 0x02, 0x06] ∧
      AgentAgrees plainEnv mixedCommands := by
  have hcaps : ∀ cmd ∈ forwarded mixedCommands, cmd.WithinCaps plainEnv := by
    unfold WithinCaps
    decide +kernel
  have hknown : ∀ cmd ∈ forwarded mixedCommands, Known cmd.ty := by
    unfold Known
    decide +kernel
  exact ⟨hcaps, by decide +kernel, (agent_agrees_iff plainEnv mixedCommands hcaps).mpr hknown⟩

end Rustcast.Hostd
