import A20OS.Kep.Exec

/-!
Safety of accepted extension programs.

The verifier's argument is that a run only visits slots it looked at, moves forward and meets
`EXIT` at the latest in the last slot. But a jump may land on the second slot of a 64-bit load,
and the last slot may itself be one, so that the load before it runs past the end.
`OnCheckedPath` says of the state before a step that neither happens there; then `pc < ninsns`
and the distance to the last slot decreases. Memory safety needs one more condition, because the
verifier does not look at the source register of `STX`: `StxSourceOk`.
-/

namespace A20OS.Kep

open Lib List

/-! ### Conditions on the state before a step -/

/-- The step starts at a slot that is not the second half of a 64-bit load, and
is not a 64-bit load that takes the last slot as its second half. -/
def OnCheckedPath (insns : List Insn) (s : State) : Prop :=
  ¬ imm64Tail insns s.pc ∧
    ¬ (s.pc + 2 = insns.length ∧ ∃ insn ∈ insns[s.pc]?, insn.cls = .ld)

instance (insns : List Insn) (s : State) : Decidable (OnCheckedPath insns s) := by
  unfold OnCheckedPath; infer_instance

/-- An `STX` that is going to store names a register that exists. -/
def StxSourceOk (img : Image) (s : State) : Prop :=
  (img.insnAt s.pc).cls = .stx → s.ctx.admits (img.insnAt s.pc) → (img.insnAt s.pc).src ≤ 10

instance (img : Image) (s : State) : Decidable (StxSourceOk img s) := by
  unfold StxSourceOk; infer_instance

/-- The access stays inside the program, the register array, and the part of a
window of `window` bytes that the verifier bounds by `maxOff`. -/
def Access.InBounds (ninsns maxOff window : Nat) : Access → Prop
  | .fetch i => i < ninsns
  | .regRead r | .regWrite r => r < kepRegs
  | .ctxRead off | .ctxWrite off => off + 8 ≤ maxOff ∧ off + 8 ≤ window

/-! ### Slots a run stands on -/

section Verified

variable {img : Image} {maxOff : Nat} (verified : Accepted img.insns maxOff)
include verified

theorem insnAt_mem {pc : Nat} (hpc : pc < img.insns.length) : img.insnAt pc ∈ img.insns[pc]? := by
  have hmax : pc < kepMaxProgInsns := lt_of_lt_of_le hpc verified.bounded
  simp [Image.insnAt, hmax, hpc]

variable {s : State}

/-- A step on a checked path executes a slot that passed its check. -/
theorem slotOk_of_onCheckedPath (hpc : s.pc < img.insns.length) (path : OnCheckedPath img.insns s) :
    SlotOk img.insns.length maxOff s.pc (img.insnAt s.pc) := by
  rcases mem_checkedSlots_or_imm64Tail hpc with checked | tail
  · obtain ⟨insn, hinsn, ok⟩ := verified.slots s.pc checked
    have hat := insnAt_mem verified hpc
    rw [Option.mem_def] at hinsn hat
    rw [hinsn, Option.some_inj] at hat
    rw [← hat]
    exact ok
  · exact absurd tail path.1

/-- Only `EXIT` stands in the last slot. -/
theorem succ_lt_of_not_isExit {pc : Nat} (hpc : pc < img.insns.length)
    (going : ¬ (img.insnAt pc).isExit) : pc + 1 < img.insns.length := by
  by_contra hlast
  obtain ⟨last, hmem, hcls, hop⟩ := verified.endsExit
  have hat := insnAt_mem verified hpc
  have hidx : img.insns.length - 1 = pc := by omega
  rw [Option.mem_def, getLast?_eq_getElem?, hidx] at hmem
  rw [Option.mem_def, hmem, Option.some_inj] at hat
  exact going ⟨.inl (hat ▸ hcls), hat ▸ hop⟩

section
variable (hpc : s.pc < img.insns.length)
include hpc

theorem add_two_lt_of_ld (path : OnCheckedPath img.insns s)
    (hcls : (img.insnAt s.pc).cls = .ld) : s.pc + 2 < img.insns.length := by
  have next : s.pc + 1 < img.insns.length := by
    apply succ_lt_of_not_isExit verified hpc
    rintro ⟨hjmp | hjmp, -⟩ <;> simp [hcls] at hjmp
  have notLast : s.pc + 2 ≠ img.insns.length := by
    intro hlast
    exact path.2 ⟨hlast, _, insnAt_mem verified hpc, hcls⟩
  omega

/-- The offset of a jump that passed its check is positive and its target is in the
program. -/
theorem jump_target (path : OnCheckedPath img.insns s)
    (hcls : (img.insnAt s.pc).cls = .jmp ∨ (img.insnAt s.pc).cls = .jmp32)
    (going : ¬ (img.insnAt s.pc).isExit) :
    ((img.insnAt s.pc).off.signExtend 32).toNat = (img.insnAt s.pc).off.toNat ∧
      s.pc + 1 + (img.insnAt s.pc).off.toNat < img.insns.length := by
  have ok := slotOk_of_onCheckedPath verified hpc path
  have checked : 0 < (img.insnAt s.pc).off.toInt ∧
      s.pc + 1 + (img.insnAt s.pc).off.toNat < img.insns.length := by
    unfold SlotOk at ok
    rcases hcls with hcls | hcls <;> simp only [hcls] at ok <;>
      rcases ok with exit | ⟨-, -, pos, target⟩
    · exact absurd ⟨.inl hcls, exit⟩ going
    · exact ⟨pos, target⟩
    · exact absurd ⟨.inr hcls, exit⟩ going
    · exact ⟨pos, target⟩
  refine ⟨?_, checked.2⟩
  have hmsb : (img.insnAt s.pc).off.msb = false := by
    rw [Bool.eq_false_iff]
    intro hm
    exact absurd (BitVec.toInt_neg_of_msb_true hm) (by omega)
  rw [BitVec.signExtend_eq_setWidth_of_msb_false hmsb, BitVec.toNat_setWidth]
  omega

/-- A step on a checked path that does not return moves strictly forward and
stays inside the program. -/
theorem kepStep_advances {s' : State}
    (path : OnCheckedPath img.insns s) (h : (kepStep img s).next = .inl s') :
    s.pc < s'.pc ∧ s'.pc < img.insns.length ∧ s'.ctx.nwords = s.ctx.nwords := by
  obtain ⟨going, hctx, hmove⟩ := kepStep_next h
  have hsmall : img.insns.length ≤ 256 := verified.bounded
  have hsucc := succ_lt_of_not_isExit verified hpc going
  rcases hmove with ⟨-, hpc'⟩ | ⟨himm, hpc'⟩ | ⟨hcls, hpc'⟩
  · exact ⟨by omega, by omega, hctx⟩
  · have htwo := add_two_lt_of_ld verified hpc path himm.1
    exact ⟨by omega, by omega, hctx⟩
  · obtain ⟨hoff, target⟩ := jump_target verified hpc path hcls going
    exact ⟨by omega, by omega, hctx⟩

end

omit verified in
theorem operandAccesses_inBounds {insn : Insn} {a : Access} (ninsns maxOff window : Nat)
    (hsrc : bpfSrc insn.code = bpfX → insn.srcReg.toNat ≤ 10) (h : a ∈ operandAccesses insn) :
    a.InBounds ninsns maxOff window := by
  unfold operandAccesses at h
  split at h
  · rename_i hX
    rw [mem_singleton] at h
    rw [h]
    exact Nat.lt_succ_of_le (Insn.src_le (hsrc hX))
  · cases h

omit verified in
/-- The context access of a slot that passed its check, once the interpreter's
own guard let it through. -/
theorem ctxAccess_inBounds {insn : Insn} {ctx : Ctx} (hoff : ¬ insn.offNegative)
    (hend : insn.accessEnd ≤ maxOff) (guard : ctx.admits insn) :
    insn.off.toNat + 8 ≤ maxOff ∧ insn.off.toNat + 8 ≤ ctx.nwords.toNat * 8 := by
  rw [Insn.accessEnd_of_nonneg hoff] at hend
  exact ⟨hend, Ctx.admits_window guard⟩

/-- Every access of a step on a checked path is in bounds, except that a storing
`STX` reads whatever register its unchecked source field names. -/
theorem kepStep_access (hpc : s.pc < img.insns.length) (path : OnCheckedPath img.insns s)
    {a : Access} (h : a ∈ (kepStep img s).accesses) :
    a.InBounds img.insns.length maxOff (s.ctx.nwords.toNat * 8) ∨
      (a = .regRead (img.insnAt s.pc).src ∧ (img.insnAt s.pc).cls = .stx ∧
        s.ctx.admits (img.insnAt s.pc)) := by
  have ok := slotOk_of_onCheckedPath verified hpc path
  have htwo := add_two_lt_of_ld verified hpc path
  have hsmall : img.insns.length ≤ 256 := verified.bounded
  have hsecond : (s.pc + 1) % 2 ^ 32 = s.pc + 1 := by omega
  unfold SlotOk at ok
  unfold kepStep at h
  generalize img.insnAt s.pc = insn at *
  have hreg {r : Nat} (hr : r ≤ 10) : r < kepRegs := Nat.lt_succ_of_le hr
  cases hcls : insn.cls <;> simp only [hcls] at h ok htwo
  case stx =>
    obtain ⟨-, hoff, hend⟩ := ok
    split at h <;> simp only [mem_cons, not_mem_nil, or_false] at h
    · rename_i guard
      rcases h with rfl | rfl | rfl
      · exact .inl hpc
      · exact .inr ⟨rfl, rfl, guard.2⟩
      · exact .inl (ctxAccess_inBounds hoff hend guard.2)
    · exact .inl (h ▸ hpc)
  all_goals left
  case ld =>
    obtain ⟨-, -, hdst, -⟩ := ok
    have next := htwo trivial
    split at h <;> simp only [mem_cons, not_mem_nil, or_false, hsecond] at h
    · rcases h with rfl | rfl | rfl
      · exact hpc
      · exact Nat.lt_of_succ_lt next
      · exact hreg (Insn.dst_le hdst)
    · rcases h with rfl | rfl
      · exact hpc
      · exact hreg (Insn.dst_le hdst)
  case ldx =>
    obtain ⟨hdst, hoff, hend⟩ := ok
    split at h <;> simp only [mem_cons, not_mem_nil, or_false] at h
    · rename_i guard
      rcases h with rfl | rfl | rfl
      · exact hpc
      · exact ctxAccess_inBounds hoff hend guard
      · exact hreg (Insn.dst_le hdst)
    · rcases h with rfl | rfl
      · exact hpc
      · exact hreg (Insn.dst_le hdst)
  case st =>
    obtain ⟨hsrc, hoff, hend⟩ := ok
    have operand {a : Access} (ha : a ∈ operandAccesses insn) :=
      operandAccesses_inBounds img.insns.length maxOff (s.ctx.nwords.toNat * 8)
        (fun _ => hsrc.trans_le (Nat.zero_le 10)) ha
    split at h <;>
      simp only [mem_cons, mem_append, not_mem_nil, or_false, or_assoc] at h
    · rename_i guard
      rcases h with rfl | h | rfl
      · exact hpc
      · exact operand h
      · exact ctxAccess_inBounds hoff hend guard
    · rcases h with rfl | h
      · exact hpc
      · exact operand h
  case alu | alu64 =>
    obtain ⟨hdst, hsrc⟩ := ok
    simp only [mem_cons, mem_append, not_mem_nil, or_false, or_assoc] at h
    rcases h with rfl | rfl | h | rfl
    · exact hpc
    · exact hreg (Insn.dst_le hdst)
    · exact operandAccesses_inBounds _ _ _ hsrc h
    · exact hreg (Insn.dst_le hdst)
  case jmp | jmp32 =>
    split at h <;> simp only [mem_cons, not_mem_nil, or_false] at h
    · rcases h with rfl | rfl
      · exact hpc
      · exact hreg (Nat.zero_le _)
    rename_i going
    obtain exit | ⟨hdst, hsrc, -⟩ := ok
    · exact absurd exit going
    · rcases h with rfl | rfl | h
      · exact hpc
      · exact hreg (Insn.dst_le hdst)
      · exact operandAccesses_inBounds _ _ _ hsrc h

end Verified

/-! ### Small programs -/

/-- `r0 = *(u64 *)(r1 + 0)`. -/
def ldxCtx : Insn := ⟨0x79, 0, 1, 0, 0⟩

def exit : Insn := ⟨0x95, 0, 0, 0, 0⟩

/-- The first word, or a constant for the word zero: a jump to a load of two slots. -/
def orConstant : List Insn :=
  [ldxCtx, ⟨0x15, 0, 0, 1, 0⟩, exit, ⟨0x18, 0, 0, 0, 7⟩, ⟨0, 0, 0, 0, 1⟩, exit]

/-- `*(u64 *)(r1 + 0) = r15`. -/
def stxR15 : Insn := ⟨0x7b, 1, 15, 0, 0⟩

/-- A load whose second half is the closing `EXIT`. -/
def fallsOffEnd : List Insn := [ldxCtx, ⟨0x18, 0, 0, 0, 0⟩, exit]

/-- A jump to the second half of a load, which reads as a jump to itself. -/
def jumpsIntoTail : List Insn :=
  [ldxCtx, ⟨0x05, 0, 0, 1, 0⟩, ⟨0x18, 0, 0, 0, 0⟩, ⟨0x05, 0, 0, -1, 0⟩, exit]

/-- The program in a memory that is `EXIT`s and zeros behind the arrays. -/
def Image.quiet (insns : List Insn) : Image := ⟨insns, fun _ => exit, fun _ => 0⟩

def oneWord : Ctx := ⟨0x1000, 1, List.replicate 8 0, rfl⟩

/-! ### Runs -/

section Runs

variable {insns : List Insn} {maxOff : Nat} {img : Image}

/-- **Runs of accepted programs.** If every step of the run is on a checked path,
the run stays inside the program, executes each slot at most once and stops by
itself. -/
theorem kepRun_checked (accepted : kepVerify insns = .ok maxOff) (loaded : img.insns = insns)
    (ctx : Ctx) (path : ∀ s ∈ (kepRun img ctx).1, OnCheckedPath insns s) :
    (∀ s ∈ (kepRun img ctx).1, s.pc < insns.length ∧ s.ctx.nwords = ctx.nwords) ∧
      (kepRun img ctx).1.length ≤ insns.length ∧
      ∃ t v, Stops (fun s => (kepStep img s).next) kepBudget (.start ctx) t v := by
  subst loaded
  have verified := kepVerify_ok accepted
  have hpos := verified.nonempty
  have hsmall : img.insns.length ≤ 256 := verified.bounded
  have run := loop_stops
    (fun s => s.pc < img.insns.length ∧ s.ctx.nwords = ctx.nwords)
    (OnCheckedPath img.insns) (fun s => img.insns.length - 1 - s.pc)
    (fun s s' inv ok h => by
      obtain ⟨forward, inside, hctx⟩ := kepStep_advances verified inv.1 ok h
      exact ⟨⟨inside, hctx.trans inv.2⟩, by omega⟩)
    kepBudget (.start ctx) (by simp only [kepBudget, kepMaxProgInsns]; omega) ⟨hpos, rfl⟩ path
  obtain ⟨inv, len, stop⟩ := run
  refine ⟨inv, ?_, stop⟩
  unfold kepRun
  omega

/-- Safety of a run: `kep_exec` fetches only slots of the program, executes at most
as many instructions as it has, and stops by executing an `EXIT`. -/
theorem kepExec_stays_in_program (accepted : kepVerify insns = .ok maxOff) (img : Image)
    (loaded : img.insns = insns) (ctx : Ctx)
    (path : ∀ s ∈ (kepRun img ctx).1, OnCheckedPath insns s) :
    (∀ s ∈ (kepRun img ctx).1, ∀ i, .fetch i ∈ (kepStep img s).accesses → i < insns.length) ∧
      (kepRun img ctx).1.length ≤ insns.length ∧
      ∃ last v, (kepRun img ctx).1.getLast? = some last ∧ (kepRun img ctx).2 = some v ∧
        (img.insnAt last.pc).isExit := by
  obtain ⟨inv, len, last, v, hlast, hv, stop⟩ := kepRun_checked accepted loaded ctx path
  refine ⟨?_, len, last, v, hlast, hv, kepStep_stop stop⟩
  subst loaded
  intro s hs i hfetch
  rcases kepStep_access (kepVerify_ok accepted) (inv s hs).1 (path s hs) hfetch with hin | ⟨h, -⟩
  · exact hin
  · cases h

theorem kepExec_stays_in_program_orConstant :
    (kepRun (Image.quiet orConstant) oneWord).1.map State.pc = [0, 1, 3, 5] ∧
      (kepRun (Image.quiet orConstant) oneWord).1.length ≤ 6 :=
  ⟨by decide, (@kepExec_stays_in_program orConstant 8 (by decide) (.quiet orConstant) rfl oneWord
    (by decide)).2.1⟩

/-- Two accepted programs that are not safe. In the first the last slot is the
second half of the load before it, and the run goes on to fetch slot 3 of 3. In
the second a jump lands on a second half that reads as a jump to itself, and the
run has executed more instructions than the five of the program without meeting
an `EXIT`. -/
theorem kepVerify_accepts_unsafe :
    (kepVerify fallsOffEnd = .ok 8 ∧ fallsOffEnd.length = 3 ∧
      ∃ s ∈ (kepRun (Image.quiet fallsOffEnd) oneWord).1,
        .fetch 3 ∈ (kepStep (Image.quiet fallsOffEnd) s).accesses) ∧
    (kepVerify jumpsIntoTail = .ok 8 ∧ jumpsIntoTail.length = 5 ∧
      ((kepRun (Image.quiet jumpsIntoTail) oneWord).1.map State.pc).take 6 =
        [0, 1, 3, 3, 3, 3]) := by
  decide

/-- Memory safety of a run: every access of `kep_exec` is in bounds. -/
theorem kepExec_accesses_inBounds (accepted : kepVerify insns = .ok maxOff) (img : Image)
    (loaded : img.insns = insns) (ctx : Ctx)
    (path : ∀ s ∈ (kepRun img ctx).1, OnCheckedPath insns s ∧ StxSourceOk img s) :
    ∀ s ∈ (kepRun img ctx).1, ∀ a ∈ (kepStep img s).accesses,
      a.InBounds insns.length maxOff (ctx.nwords.toNat * 8) := by
  obtain ⟨inv, -⟩ := kepRun_checked accepted loaded ctx fun s hs => (path s hs).1
  subst loaded
  intro s hs a ha
  obtain ⟨hpc, hctx⟩ := inv s hs
  rw [← hctx]
  rcases kepStep_access (kepVerify_ok accepted) hpc (path s hs).1 ha with
    hin | ⟨rfl, hcls, guard⟩
  · exact hin
  · exact Nat.lt_succ_of_le ((path s hs).2 hcls guard)

theorem kepExec_accesses_inBounds_orConstant : kepVerify orConstant = .ok 8 ∧
    ∀ s ∈ (kepRun (Image.quiet orConstant) oneWord).1,
      ∀ a ∈ (kepStep (Image.quiet orConstant) s).accesses, a.InBounds 6 8 8 :=
  ⟨by decide, @kepExec_accesses_inBounds orConstant 8 (by decide) (.quiet orConstant) rfl oneWord
    (by decide)⟩

/-- An accepted program whose only store reads register 15 of an array of 11. -/
theorem kepVerify_accepts_stray_register :
    kepVerify [stxR15, exit] = .ok 8 ∧
      ∃ s ∈ (kepRun (Image.quiet [stxR15, exit]) oneWord).1,
        .regRead 15 ∈ (kepStep (Image.quiet [stxR15, exit]) s).accesses := by
  decide

/-! ### A check that would have been enough -/

/-- No jump that was looked at targets the second slot of a 64-bit load, and the
last slot is not one. -/
def JumpsAvoidTails (insns : List Insn) : Prop :=
  (∀ pc ∈ checkedSlots 0 insns, ∀ insn ∈ insns[pc]?, (insn.cls = .jmp ∨ insn.cls = .jmp32) →
      ¬ insn.isExit → ¬ imm64Tail insns (pc + 1 + insn.off.toNat)) ∧
    ¬ imm64Tail insns (insns.length - 1)

theorem onCheckedPath_of_avoid (avoid : JumpsAvoidTails insns) {s : State}
    (hpc : s.pc < insns.length) (checked : ¬ imm64Tail insns s.pc) : OnCheckedPath insns s := by
  refine ⟨checked, ?_⟩
  rintro ⟨hlast, insn, hinsn, hld⟩
  apply avoid.2
  have hmem := (mem_checkedSlots_or_imm64Tail hpc).resolve_right checked
  exact ⟨s.pc, hmem, by omega, by omega, insn, hinsn, hld⟩

/-- A step that starts on the checked path ends on it. -/
theorem kepStep_avoids (verified : Accepted img.insns maxOff) (avoid : JumpsAvoidTails img.insns)
    {s s' : State} (hpc : s.pc < img.insns.length) (checked : ¬ imm64Tail img.insns s.pc)
    (h : (kepStep img s).next = .inl s') : ¬ imm64Tail img.insns s'.pc := by
  have path := onCheckedPath_of_avoid avoid hpc checked
  have hmem := (mem_checkedSlots_or_imm64Tail hpc).resolve_right checked
  have hat := insnAt_mem verified hpc
  have hsmall : img.insns.length ≤ 256 := verified.bounded
  obtain ⟨going, -, hmove⟩ := kepStep_next h
  rcases hmove with ⟨hsingle, hpc'⟩ | ⟨himm, hpc'⟩ | ⟨hcls, hpc'⟩
  · rintro ⟨q, hq, hsucc, -, insn, hinsn, hld⟩
    -- the tail of the slot just executed, which is then a load of one slot only
    obtain rfl : q = s.pc := by omega
    have ok := slotOk_of_onCheckedPath verified hpc path
    rw [Option.mem_def] at hinsn hat
    rw [hinsn, Option.some_inj] at hat
    subst hat
    simp only [SlotOk, hld] at ok
    exact hsingle ⟨hld, ok.2.1, ok.1⟩
  · rintro ⟨q, hq, hsucc, -, -⟩
    obtain rfl : q = s.pc + 1 := by omega
    exact (checkedSlots_apart 0 img.insns s.pc hmem).2 hq _ hat himm.1
  · obtain ⟨hoff, target⟩ := jump_target verified hpc path hcls going
    have htarget : s'.pc = s.pc + 1 + (img.insnAt s.pc).off.toNat := by omega
    rw [htarget]
    exact avoid.1 s.pc hmem _ hat hcls going

/-- **A sufficient check.** An accepted program that also passes it stays inside the program in
every run, executes each slot at most once and stops by itself, whatever the context holds. -/
theorem kepRun_avoiding (accepted : kepVerify insns = .ok maxOff) (avoid : JumpsAvoidTails insns)
    (loaded : img.insns = insns) (ctx : Ctx) :
    (∀ s ∈ (kepRun img ctx).1, OnCheckedPath insns s ∧ s.pc < insns.length) ∧
      (kepRun img ctx).1.length ≤ insns.length ∧
      ∃ t v, Stops (fun s => (kepStep img s).next) kepBudget (.start ctx) t v := by
  subst loaded
  have verified := kepVerify_ok accepted
  have hsmall : img.insns.length ≤ 256 := verified.bounded
  obtain ⟨inv, -⟩ := loop_stops
    (fun s : State => s.pc < img.insns.length ∧ ¬ imm64Tail img.insns s.pc)
    (fun _ => True) (fun s => img.insns.length - 1 - s.pc)
    (fun s s' inv _ (h : (kepStep img s).next = .inl s') => by
      have path := onCheckedPath_of_avoid avoid inv.1 inv.2
      obtain ⟨forward, inside, -⟩ := kepStep_advances verified inv.1 path h
      exact ⟨⟨inside, kepStep_avoids verified avoid inv.1 inv.2 h⟩, by omega⟩)
    kepBudget (.start ctx) (by simp only [kepBudget, kepMaxProgInsns]; omega)
    ⟨verified.nonempty, by rintro ⟨q, -, hq, -⟩; cases hq⟩ (fun _ _ => trivial)
  have path : ∀ s ∈ (kepRun img ctx).1, OnCheckedPath img.insns s := fun s hs =>
    onCheckedPath_of_avoid avoid (inv s hs).1 (inv s hs).2
  exact ⟨fun s hs => ⟨path s hs, (inv s hs).1⟩, (kepRun_checked accepted rfl ctx path).2⟩

theorem kepRun_avoiding_orConstant : kepVerify orConstant = .ok 8 ∧
    (kepRun (Image.quiet orConstant) oneWord).1.length ≤ 6 :=
  ⟨by decide, (@kepRun_avoiding orConstant 8 (.quiet orConstant) (by decide)
    (by unfold JumpsAvoidTails; decide) rfl oneWord).2.1⟩

end Runs

end A20OS.Kep
