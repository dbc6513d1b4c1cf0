import M5Z80.Lib.Programs
import M5Z80.Z80.Opcodes

/-!
# M5Z80.Z80.Built

What the opcode functions are made of.  Each one but `halt` and `ei` is
put together from the primitives of `M5Z80.Z80.Cpu`, and the instances
count the memory accesses and charges it makes.
-/

namespace M5Z80

namespace Cpu

/-- The primitives; memory accesses and charges have weight `1`.  None of
them sets or clears `R.HALT`. -/
inductive Prim : (α : Type) → Nat → Cpu α → Prop
  | reg {α : Type} (f : Z80Regs → α) : Prim α 0 (reg f)
  | pairs (f : RegFile → RegFile) : Prim _ 0 (pairs f)
  | control (f : Z80Regs → Z80Regs) (h : ∀ R, (f R).halt = R.halt) : Prim _ 0 (control f)
  | doOut (lo hi : UInt8) (v : UInt16) : Prim _ 0 (doOut lo hi v)
  | wild (i : UInt32) : Prim _ 0 (wild i)
  | rdmem (a : UInt32) : Prim _ 1 (rdmem a)
  | wrmem (a v : UInt32) : Prim _ 1 (wrmem a v)
  | cstate {n : Nat} (h : n ≤ 23) : Prim _ 1 (cstate n)

/-- `x` is made of primitives with a total weight of at most `n`. -/
class Built {α : Type} (x : Cpu α) (n : outParam Nat) : Prop where
  made : Programs.Made Prim n x

namespace Built

variable {α β : Type}

/-- Allow for more accesses than a program makes. -/
theorem le {x : Cpu α} {j k : Nat} [hx : Built x j] (h : j ≤ k) : Built x k := ⟨hx.made.mono h⟩

instance (a : α) : Built (pure a : Cpu α) 0 := ⟨.pure a⟩
instance {x : Cpu α} {f : α → Cpu β} {j k : Nat} [hx : Built x j] [hf : ∀ a, Built (f a) k] :
    Built (x >>= f) (j + k) := ⟨.bind hx.made fun a => (hf a).made⟩
instance {c : Prop} [Decidable c] {x y : Cpu α} {j k : Nat} [hx : Built x j] [hy : Built y k] :
    Built (if c then x else y) (max j k) := ⟨.ite hx.made hy.made⟩
instance (f : Z80Regs → α) : Built (reg f) 0 := ⟨.prim (.reg f)⟩
instance (f : RegFile → RegFile) : Built (pairs f) 0 := ⟨.prim (.pairs f)⟩
instance (lo hi : UInt8) (v : UInt16) : Built (doOut lo hi v) 0 := ⟨.prim (.doOut lo hi v)⟩
instance (i : UInt32) : Built (wild i) 0 := ⟨.prim (.wild i)⟩
instance (a : UInt32) : Built (rdmem a) 1 := ⟨.prim (.rdmem a)⟩
instance (a v : UInt32) : Built (wrmem a v) 1 := ⟨.prim (.wrmem a v)⟩

theorem control {f : Z80Regs → Z80Regs} (h : ∀ R, (f R).halt = R.halt) : Built (control f) 0 :=
  ⟨.prim (.control f h)⟩

theorem cstate {n : Nat} (h : n ≤ 23) : Built (cstate n) 1 := ⟨.prim (.cstate h)⟩

instance : Built (Cpu.cstate 5) 1 := cstate (by decide)
instance : Built (Cpu.cstate 6) 1 := cstate (by decide)
instance : Built (Cpu.cstate 7) 1 := cstate (by decide)

/-! ## words, the stack and jumps -/

instance (n : UInt16) : Built (skip n) 0 := by unfold skip; infer_instance
instance : Built rdmemOpcode 1 := by unfold rdmemOpcode; infer_instance
instance (a : UInt32) : Built (rdmemWord a) 2 := by unfold rdmemWord; infer_instance
instance (a v : UInt32) : Built (wrmemWord a v) 2 := by unfold wrmemWord; infer_instance
instance : Built rdmemOpcodeWord 2 := by unfold rdmemOpcodeWord; infer_instance
instance (x : Z80Regs → Pair) : Built (indexed x) 1 := by unfold indexed; infer_instance
instance : Built Cpu.pop 2 := by unfold Cpu.pop; infer_instance
instance (f : Pair → RegFile → RegFile) : Built (popTo f) 2 := by unfold popTo; infer_instance
instance (f : Z80Regs → Pair) : Built (push f) 2 := by unfold push; infer_instance
instance (a : UInt32) : Built (setPC a) 0 := by unfold setPC; infer_instance
instance : Built call 5 := by unfold call; infer_instance
instance : Built jp 2 := by unfold jp; infer_instance
instance : Built jr 2 := by unfold jr; infer_instance
instance : Built ret 3 := by unfold ret; infer_instance
instance (a : UInt32) : Built (rst a) 2 := by unfold rst; infer_instance

end Built

end Cpu

namespace Op

open Cpu

/-! ## operands -/

instance (x : Loc) : Built x.addr 1 := by
  cases x with
  | xhl =>
      change Built (reg (·.hl.d)) 1
      exact Built.le (by decide)
  | xix => exact inferInstanceAs (Built (indexed _) 1)
  | xiy => exact inferInstanceAs (Built (indexed _) 1)

instance (s : Opnd) : Built s.read 2 := by
  cases s with
  | reg r =>
      change Built (reg (r.get ·.toRegFile)) 2
      exact Built.le (by decide)
  | mem x => unfold Opnd.read; infer_instance

instance (f : UInt8 → UInt8 → UInt8 × UInt8) (s : Opnd) : Built (s.modify f) 3 := by
  cases s with
  | reg r =>
      unfold Opnd.modify
      exact Built.le (by decide)
  | mem x => unfold Opnd.modify; infer_instance

/-! ## the opcode functions -/

instance : Built nextByte 1 := by unfold nextByte; infer_instance
instance (f : UInt8 → RegFile → RegFile) (s : Opnd) : Built (alu f s) 2 := by
  unfold alu; infer_instance
instance (f : UInt8 → RegFile → RegFile) : Built (aluByte f) 1 := by unfold aluByte; infer_instance
instance : Built rld 2 := by unfold rld; infer_instance
instance : Built rrd 2 := by unfold rrd; infer_instance
instance (r : Reg8) (s : Opnd) : Built (ld r s) 2 := by unfold ld; infer_instance
instance (r : Reg8) : Built (ldByte r) 1 := by unfold ldByte; infer_instance
instance (x : Loc) (r : Reg8) : Built (ldLoc x r) 2 := by unfold ldLoc; infer_instance
instance : Built ldXhlByte 2 := by unfold ldXhlByte; infer_instance
instance (x : Loc) : Built (ldIndexedByte x) 3 := by unfold ldIndexedByte; infer_instance
instance (r : Reg16) : Built (ldXpairA r) 1 := by unfold ldXpairA; infer_instance
instance (r : Reg16) : Built (ldAXpair r) 1 := by unfold ldAXpair; infer_instance
instance : Built ldXbyteA 3 := by unfold ldXbyteA; infer_instance
instance : Built ldAXbyte 3 := by unfold ldAXbyte; infer_instance
instance (r : Reg16) : Built (ldXword r) 4 := by unfold ldXword; infer_instance
instance (r : Reg16) : Built (ldPairXword r) 4 := by unfold ldPairXword; infer_instance
instance (r : Reg16) : Built (ldWord r) 2 := by unfold ldWord; infer_instance
instance : Built ldAI 0 := by unfold ldAI; infer_instance
instance : Built ldAR 0 := by unfold ldAR; infer_instance
instance (r : Reg16) : Built (exXsp r) 4 := by unfold exXsp; infer_instance
instance (cc : Cond) : Built (holds cc) 0 := by unfold holds; infer_instance
instance (cc : Cond) : Built (jpCc cc) 2 := by unfold jpCc; infer_instance
instance (cc : Cond) : Built (jrCc cc) 2 := by unfold jrCc; infer_instance
instance : Built djnz 2 := by unfold djnz; infer_instance
instance (cc : Cond) : Built (callCc cc) 5 := by unfold callCc; infer_instance
instance (cc : Cond) : Built (retCc cc) 3 := by unfold retCc; infer_instance
instance : Built reti 3 := by unfold reti; infer_instance
instance : Built retn 3 := by
  have hiff : Built (control fun R => { R with iff1 := R.iff2 }) 0 := .control fun _ => rfl
  unfold retn
  infer_instance
instance (r : Reg16) : Built (pop r) 2 := by unfold pop; infer_instance
instance (r : Reg16) : Built (push r) 2 := by unfold push; infer_instance
instance : Built again 1 := by unfold again; infer_instance
instance (d : UInt16) : Built (ldBlock d) 2 := by unfold ldBlock; infer_instance
instance (d : UInt16) : Built (cpBlock d) 1 := by unfold cpBlock; infer_instance
instance (d : UInt16) : Built (inBlock d) 1 := by unfold inBlock ioFlags; infer_instance
instance (d : UInt16) : Built (outBlock d) 1 := by unfold outBlock ioFlags; infer_instance

section

variable (step : Cpu Unit) {n : Nat} [Built step n]

instance : Built (ldRepeat step) (n + 1) := by unfold ldRepeat; infer_instance
instance : Built (cpRepeat step) (n + 1) := by unfold cpRepeat; infer_instance
instance : Built (ioRepeat step) (n + 1) := by unfold ioRepeat; infer_instance

end

instance : Built portIn 0 := by unfold portIn; infer_instance
instance (r : Reg8) : Built (inC r) 0 := by unfold inC; infer_instance
instance : Built in0C 0 := by unfold in0C; infer_instance
instance : Built inAByte 1 := by unfold inAByte; infer_instance
instance (r : Reg8) : Built (outC r) 0 := by unfold outC; infer_instance
instance : Built outC0 0 := by unfold outC0; infer_instance
instance : Built outByteA 1 := by unfold outByteA; infer_instance
instance : Built nop 0 := by unfold nop; infer_instance
instance : Built noOpXx 0 := by unfold noOpXx; infer_instance
instance : Built incR 0 := .control fun _ => rfl
instance : Built ldIA 0 := .control fun _ => rfl
instance : Built ldRA 0 := .control fun _ => rfl
instance : Built di 0 := .control fun _ => rfl
instance (n : UInt32) : Built (im n) 0 := .control fun _ => rfl

/-! ## the tables -/

/-- Whatever is at an index of a table of programs is a program. -/
theorem built_entry {table : List (Cpu Unit)} {k : Nat} (h : ∀ x ∈ table, Built x k) (i : Nat) :
    Built (table.getD i nop) k := by
  rw [List.getD_eq_getElem?_getD]
  cases hx : table[i]? with
  | none => exact Built.le (x := nop) (Nat.zero_le k)
  | some x => exact h x (List.mem_of_getElem? hx)

/-- No entry of a table of T-states is more than its greatest. -/
theorem cost_le {cycles : List Nat} {n : Nat} (h : ∀ c ∈ cycles, c ≤ n) (i : Nat) :
    cycles.getD i 0 ≤ n := by
  rw [List.getD_eq_getElem?_getD]
  cases hc : cycles[i]? with
  | none => exact Nat.zero_le n
  | some c => exact h c (List.mem_of_getElem? hc)

/-- An entry of a table whose functions are all built. -/
theorem built_dispatch {cycles : List Nat} {table : List (Cpu Unit)} {k : Nat}
    (hcycles : ∀ n ∈ cycles, n ≤ 23) (htable : ∀ x ∈ table, Built x k) (opcode : UInt32) :
    Built (dispatch cycles table opcode) (1 + k) := by
  have hentry : Built (table.getD opcode.toNat nop) k := built_entry htable _
  have hcstate : Built (cstate (cycles.getD opcode.toNat 0)) 1 := .cstate (cost_le hcycles _)
  unfold dispatch
  split
  · infer_instance
  · exact Built.le (Nat.zero_le _)

/-- The eight programs of a row behind CB. -/
theorem built_of_mem_cbRow {f : Opnd → Cpu Unit} (h : ∀ s, Built (f s) 3) :
    ∀ x ∈ cbRow f, Built x 3 := by
  intro x hx
  simp only [cbRow, List.mem_cons, List.not_mem_nil, or_false] at hx
  rcases hx with rfl | rfl | rfl | rfl | rfl | rfl | rfl | rfl <;> exact h _

/-- All programs behind CB. -/
theorem built_of_mem_opcodeCb : ∀ x ∈ opcodeCb, Built x 3 := by
  intro x hx
  obtain ⟨row, hrow, hx⟩ := List.mem_flatten.mp hx
  obtain ⟨f, hf, rfl⟩ := List.mem_map.mp hrow
  refine built_of_mem_cbRow ?_ x hx
  clear hx hrow
  revert f
  simp only [rlc, rrc, rl, rr, sla, sra, sll, srl, bit, res, set]
  repeat' first
    | exact List.forall_mem_nil _
    | refine List.forall_mem_cons.mpr ⟨fun s => Built.le (by decide), ?_⟩

/-- A row behind DD CB and FD CB. -/
theorem built_of_mem_xxCbRow {f : Cpu Unit} (h : Built f 3) : ∀ x ∈ xxCbRow f, Built x 3 := by
  intro x hx
  simp only [xxCbRow, List.mem_cons, List.not_mem_nil, or_false] at hx
  have hnone : Built noOpXx 3 := Built.le (by decide)
  rcases hx with rfl | rfl | rfl | rfl | rfl | rfl | rfl | rfl <;> assumption

set_option maxRecDepth 4000 in
/-- All programs behind ED. -/
theorem built_of_mem_opcodeEd : ∀ x ∈ opcodeEd, Built x 4 := by
  simp only [opcodeEd, neg, sbcHl, adcHl, ldi, cpi, ini, outi, ldd, cpd, ind, outd,
    ldir, cpir, inir, otir, lddr, cpdr, indr, otdr]
  repeat' first
    | exact List.forall_mem_nil _
    | refine List.forall_mem_cons.mpr ⟨Built.le (by decide), ?_⟩

/-- All programs behind DD CB and FD CB. -/
theorem built_of_mem_opcodeXxCb (i : Index) : ∀ x ∈ opcodeXxCb i, Built x 3 := by
  intro x hx
  simp only [opcodeXxCb, List.mem_append, List.mem_flatten, List.mem_map] at hx
  rcases hx with ((⟨_, ⟨f, hf, rfl⟩, hx⟩ | ⟨_, ⟨n, -, rfl⟩, hx⟩) | ⟨_, ⟨n, -, rfl⟩, hx⟩) |
    ⟨_, ⟨n, -, rfl⟩, hx⟩
  · refine built_of_mem_xxCbRow ?_ x hx
    clear hx
    revert f
    simp only [rlc, rrc, rl, rr, sla, sra, sll, srl]
    repeat' first
      | exact List.forall_mem_nil _
      | refine List.forall_mem_cons.mpr ⟨Built.le (by decide), ?_⟩
  · rw [List.eq_of_mem_replicate hx, bit]
    exact Built.le (by decide)
  · exact built_of_mem_xxCbRow (by unfold res; infer_instance) x hx
  · exact built_of_mem_xxCbRow (by unfold set; infer_instance) x hx

instance (i : Index) : Built (xxCb i) 5 := by
  have hentry (opcode : UInt32) : Built (dispatch cyclesXxCb (opcodeXxCb i) opcode) 4 :=
    built_dispatch (by decide +kernel) (built_of_mem_opcodeXxCb i) opcode
  unfold xxCb
  infer_instance

set_option maxRecDepth 4000 in
/-- All programs behind DD and FD. -/
theorem built_of_mem_opcodeXx (i : Index) : ∀ x ∈ opcodeXx i, Built x 5 := by
  simp only [opcodeXx, noOp, addPair, incPair, decPair, inc, dec, addA, adcA, sub, sbcA, and, xor,
    or, cp, jpPair, ldSp]
  repeat' first
    | exact List.forall_mem_nil _
    | refine List.forall_mem_cons.mpr ⟨Built.le (by decide), ?_⟩

/-- A prefix: one access for the opcode, and one charge. -/
theorem built_prefixed {cycles : List Nat} {table : List (Cpu Unit)} {k : Nat}
    (hcycles : ∀ n ∈ cycles, n ≤ 23) (htable : ∀ x ∈ table, Built x k) :
    Built (prefixed cycles table) (2 + k) := by
  have hentry (opcode : UInt32) : Built (dispatch cycles table opcode) (1 + k) :=
    built_dispatch hcycles htable opcode
  have hbuilt : Built (prefixed cycles table) (0 + (1 + (1 + k))) := by
    unfold prefixed
    infer_instance
  exact Built.le (by omega)

instance : Built cb 5 := built_prefixed (by decide +kernel) built_of_mem_opcodeCb
instance : Built dd 7 := built_prefixed (by decide +kernel) (built_of_mem_opcodeXx .ix)
instance : Built ed 6 := built_prefixed (by decide +kernel) built_of_mem_opcodeEd
instance : Built fd 7 := built_prefixed (by decide +kernel) (built_of_mem_opcodeXx .iy)

/-- The main table without `halt` and `ei`. -/
def opcodePlain : List (Cpu Unit) := (opcodeMain nop).set 0x76 nop

set_option maxRecDepth 4000 in
/-- All programs without a prefix but EI. -/
theorem built_of_mem_opcodePlain : ∀ x ∈ opcodePlain, Built x 7 := by
  simp only [opcodePlain, opcodeMain, List.set_cons_succ, List.set_cons_zero,
    addPair, incPair, decPair, inc, dec, addA, adcA, sub, sbcA, and, xor, or, cp,
    rlca, rla, rrca, rra, daa, cpl, scf, ccf, exAfAf, exx, exDeHl, andA, orA, subA, xorA,
    addAByte, adcAByte, subByte, sbcAByte, andByte, xorByte, orByte, cpByte, jpPair, ldSp]
  repeat' first
    | exact List.forall_mem_nil _
    | refine List.forall_mem_cons.mpr ⟨Built.le (by decide), ?_⟩

/-- The other opcodes run an entry of that table. -/
theorem dispatch_plain {opcode : UInt32} (hhalt : opcode ≠ 0x76) (hei : opcode ≠ 0xFB)
    (ei : Cpu Unit) :
    dispatch cyclesMain (opcodeMain ei) opcode = dispatch cyclesMain opcodePlain opcode := by
  have hne : 0x76 ≠ opcode.toNat := by
    intro heq
    exact hhalt (UInt32.toNat_inj.mp heq.symm)
  rw [dispatch_of_ne hei ei nop, dispatch, dispatch, opcodePlain]
  simp only [List.getD_eq_getElem?_getD, List.getElem?_set_ne hne]

end Op

end M5Z80
