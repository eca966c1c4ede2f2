/-!
# Limits of the machine and the assembler

The machine addresses 64 KiB of ROM and of cache as 256 pages of 256 words; a program may hold
at most 65536 instructions, and one loop may run at most 65536 times.
-/

namespace PagedAsm

def maxInstructions : Nat := 65536

def maxIterations : Nat := 65536

def maxPage : Nat := 255

def defaultMaxDepth : Nat := 1000

end PagedAsm
