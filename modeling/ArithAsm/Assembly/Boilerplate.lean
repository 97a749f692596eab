import ArithAsm.Assembly.Line

/-! The lines around every program: the section header, the routine that prints
the accumulator, the entry point, and the exit. -/
namespace ArithAsm

/-- Prints `rdi` as an unsigned decimal and a newline with one `write`. It keeps
`rdi`, destroys `rax`, `rcx`, `rdx`, `rsi`, `r8`, `r11` and `xmm0`, and needs the
stack aligned to 16 bytes before the call. Division by ten is a multiplication
by the 64-bit reciprocal in `r8` and a shift. -/
def dumpRoutine : List String :=
  [";; dump: print rdi as unsigned decimal",
   "dump:",
   "\tpush    rdi",
   "\tsub     rsp, 32",
   "\tpxor    xmm0, xmm0",
   "\tmov     r8, -3689348814741910323",
   "\tmovaps  [rsp+16], xmm0",
   "\tlea     rcx, [rsp+30]",
   "\tmov     BYTE [rsp+31], 10",
   "\tmovaps  [rsp], xmm0",
   ".L2:",
   "\tmov     rax, rdi",
   "\tmul     r8",
   "\tmov     rax, rdi",
   "\tshr     rdx, 3",
   "\tlea     rsi, [rdx+rdx*4]",
   "\tadd     rsi, rsi",
   "\tsub     rax, rsi",
   "\tmov     rsi, rcx",
   "\tsub     rcx, 1",
   "\tadd     eax, 48",
   "\tmov     [rcx+1], al",
   "\tmov     rax, rdi",
   "\tmov     rdi, rdx",
   "\tcmp     rax, 9",
   "\tja      .L2",
   "\tmov     rax, 1",
   "\tlea     rdx, [rsp+32]",
   "\tmov     edi, 1",
   "\tsub     rdx, rsi",
   "\tsyscall",
   "\tadd     rsp, 32",
   "\tpop     rdi",
   "\tret"]

/-- The label at which execution begins. -/
def entryLabel : String := "_start:"

/-- Everything before the program's own lines. The accumulator starts at zero. -/
def prologue : List Line :=
  (["section .text", "global _start"] ++ dumpRoutine ++
    [entryLabel, s!"\txor {accumulator}, {accumulator}"]).map .fixed

/-- Everything after the program's own lines: the process exits with status zero. -/
def epilogue : List Line :=
  ["\t;; Exit", "\tmov rax, 60", "\txor rdi, rdi", "\tsyscall"].map .fixed

/-- The complete assembly of a program. -/
def Program.assembly (program : Program) : List Line :=
  prologue ++ program.lines ++ epilogue

end ArithAsm
