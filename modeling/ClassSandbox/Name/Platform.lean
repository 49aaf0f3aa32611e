import ClassSandbox.Name

/-!
# Names of the Java platform

The classes and packages of the Java platform that resolution treats by name. `covertChannels` lists the
classes through which two sandboxes could reach each other, or the world outside.
-/

namespace ClassSandbox.Platform

def system : BinaryName := ⟨"java/lang/System", by decide⟩
def concurrentHashMap : BinaryName := ⟨"java/util/concurrent/ConcurrentHashMap", by decide⟩
def atomicInteger : BinaryName := ⟨"java/util/concurrent/atomic/AtomicInteger", by decide⟩
def atomicLong : BinaryName := ⟨"java/util/concurrent/atomic/AtomicLong", by decide⟩
def atomicReference : BinaryName := ⟨"java/util/concurrent/atomic/AtomicReference", by decide⟩
def rawMemory : BinaryName := ⟨"sun/misc/Unsafe", by decide⟩

/-- The wall clock and the standard streams, state shared through concurrent collections and atomics, and
raw memory access. -/
def covertChannels : List BinaryName :=
  [system, concurrentHashMap, atomicInteger, atomicLong, atomicReference, rawMemory]

def iterator : BinaryName := ⟨"java/util/Iterator", by decide⟩
def timeUnit : BinaryName := ⟨"java/util/concurrent/TimeUnit", by decide⟩
def random : BinaryName := ⟨"java/util/Random", by decide⟩
def secureRandom : BinaryName := ⟨"java/security/SecureRandom", by decide⟩

def java : BinaryName := ⟨"java", by decide⟩
def javaUtil : BinaryName := ⟨"java/util", by decide⟩
def javaUtilJar : BinaryName := ⟨"java/util/jar", by decide⟩
def javaUtilZip : BinaryName := ⟨"java/util/zip", by decide⟩
def javaMath : BinaryName := ⟨"java/math", by decide⟩
def sun : BinaryName := ⟨"sun", by decide⟩
def com : BinaryName := ⟨"com", by decide⟩

end ClassSandbox.Platform
