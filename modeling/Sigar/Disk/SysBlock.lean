/-
  Calls of `get_iostat_sys` one after the other: the name that is cut in place.

  The name of the device is in the cache, and the call writes a NUL over its first digit.  The next
  call goes on behind that NUL, since the scan for a digit does not stop there: it takes the next
  digit of the array, and when there is none left it reads behind the array.

  1. **The name** — `cutName_cases`: a cut takes one digit.
  2. **The calls** — they do to the cache what `nameStep` does to the name alone
     (`exec_sysStep`), so the scan stays inside the name for as many calls as the name has digits
     (`inside_iff`), and the name is not what it was after any of them (`nameKept_iff`).
-/
import Sigar.Disk.Diskstats
import Sigar.Disk.Sample

namespace Sigar.Disk

open CString Cache Runs List

variable {iodev : SigarIodev} {key : UInt64} {table : SigarCache SigarIodev}

/-! ## The name -/

/-- The digits in the array of the name. -/
def SigarIodev.digits (iodev : SigarIodev) : Nat := iodev.name.countP Char.isDigit

theorem cutName_some {i : Nat} (h : iodev.name.findIdx? Char.isDigit = some i) :
    ∃ path iodev', cutName iodev = .ok (path, iodev') ∧ iodev'.name = iodev.name.set i nul := by
  simp [h, cutName]

theorem cutName_none (h : iodev.name.findIdx? Char.isDigit = none) :
    cutName iodev = .error .outsideName := by simp [h, cutName]

/-- **A cut takes one digit**, and without one it reads behind the array. -/
theorem cutName_cases (iodev : SigarIodev) :
    (iodev.digits = 0 ∧ cutName iodev = .error .outsideName) ∨
      ∃ path iodev', cutName iodev = .ok (path, iodev') ∧ iodev'.digits + 1 = iodev.digits := by
  cases hfind : iodev.name.findIdx? Char.isDigit with
  | none =>
    refine .inl ⟨?_, cutName_none hfind⟩
    rw [SigarIodev.digits, countP_eq_zero]
    simpa using findIdx?_eq_none_iff.mp hfind
  | some i =>
    obtain ⟨path, iodev', hcut, hname⟩ := cutName_some hfind
    obtain ⟨hi, hdigit, -⟩ := findIdx?_eq_some_iff_getElem.mp hfind
    have hpos : 0 < iodev.name.countP Char.isDigit :=
      countP_pos_iff.mpr ⟨_, getElem_mem hi, hdigit⟩
    have hnul : ¬ Char.isDigit nul = true := by decide
    refine .inr ⟨path, iodev', hcut, ?_⟩
    rw [SigarIodev.digits, SigarIodev.digits, hname, countP_set hi, if_pos hdigit, if_neg hnul]
    omega

/-! ## The calls -/

/-- What a call does to the name of the device: the file that it opens, if the scan finds one. -/
def nameStep (iodev : SigarIodev) (_ : DiskCall) : SigarIodev × Option Text :=
  match cutName iodev with
  | .ok (path, iodev') => (iodev', some path)
  | .error _ => (iodev, none)

/-- The file that a call opens. -/
def openedFile (host : DiskHost) (fsdev : Option (SigarCache SigarIodev)) (name : Text) :
    Option Text :=
  (sigarIodevGet host fsdev name).2.bind fun found => (cutName found.2).toOption.map Prod.fst

/-- A call as a step of the cache: the file that it opens, if the scan stays inside the name. -/
def sysStep (table : SigarCache SigarIodev) (call : DiskCall) :
    SigarCache SigarIodev × Option Text :=
  match getIostatSys call.host (some table) call.name call.host.init with
  | .ok fetched => (fetched.fsdev, openedFile call.host (some table) call.name)
  | .error _ => (table, none)

/-- **The step**: a call does to the device in the cache what it does to the name. -/
theorem sysStep_sim {call : DiskCall} (hon : call.IsOn key) (hk : Kept table)
    (hvalue : table.valueOf key = some iodev) :
    (Kept (sysStep table call).1 ∧
      (sysStep table call).1.valueOf key = some (nameStep iodev call).1) ∧
    (sysStep table call).2 = (nameStep iodev call).2 := by
  obtain ⟨sb, hstat, rfl⟩ := hon
  obtain ⟨result, addr, hget, hsame, hp⟩ := sigarIodevGet_cached hk hstat hvalue
  rw [sysStep, nameStep, openedFile, hget]
  cases hcut : cutName iodev with
  | error e =>
    rw [getIostatSys_fault hget hcut]
    exact ⟨⟨hk, hvalue⟩, rfl⟩
  | ok cut =>
    rw [getIostatSys_cut hget hcut]
    obtain ⟨hkept, hstore, -⟩ := hsame.kept.store hp (some cut.2)
    refine ⟨⟨hkept, ?_⟩, ?_⟩
    · exact (hstore _).trans (if_pos rfl)
    · rw [Option.bind_some, hcut]
      rfl

/-- **The run**, by simulation. -/
theorem exec_sysStep {calls : List DiskCall} (hk : Kept table)
    (hvalue : table.valueOf key = some iodev) (hon : ∀ call ∈ calls, call.IsOn key) :
    (exec sysStep table calls).1.valueOf key = some (exec nameStep iodev calls).1 ∧
      (exec sysStep table calls).2 = (exec nameStep iodev calls).2 := by
  have hsim := exec_sim sysStep nameStep id
    (fun (_ : Unit) table iodev => Kept table ∧ table.valueOf key = some iodev)
    (fun _ _ _ _ hok hR => sysStep_sim hok hR.1 hR.2) calls () table iodev
    (admissible_of_forall () hon) ⟨hk, hvalue⟩
  rw [map_id] at hsim
  exact ⟨hsim.1.2, hsim.2⟩

/-- What is left of the digits, and how many of the calls have found one. -/
theorem exec_nameStep : ∀ (calls : List DiskCall) (iodev : SigarIodev),
    (exec nameStep iodev calls).1.digits = iodev.digits - calls.length ∧
      ((∀ file ∈ (exec nameStep iodev calls).2, file ≠ none) ↔ calls.length ≤ iodev.digits) := by
  intro calls
  induction calls with
  | nil => simp
  | cons call calls ih =>
    intro iodev
    rw [exec_cons, forall_mem_cons, length_cons]
    rcases cutName_cases iodev with ⟨hzero, hcut⟩ | ⟨path, iodev', hcut, hdigits⟩
    · grind [nameStep]
    · have hstep : nameStep iodev call = (iodev', some path) := by rw [nameStep, hcut]
      obtain ⟨hleft, hfound⟩ := ih iodev'
      rw [hstep, hleft, hfound]
      refine ⟨by omega, fun h => ?_, fun h => ⟨nofun, ?_⟩⟩
      · have := h.2
        omega
      · omega

section Cached

variable {key : UInt64} {table : SigarCache SigarIodev} {iodev : SigarIodev}
  {calls : List DiskCall}

/-- **The scan stays inside the name** for as many calls as there are digits in it. -/
theorem inside_iff (hk : Kept table) (hvalue : table.valueOf key = some iodev)
    (hon : ∀ call ∈ calls, call.IsOn key) :
    (∀ file ∈ (exec sysStep table calls).2, file ≠ none) ↔ calls.length ≤ iodev.digits := by
  rw [(exec_sysStep hk hvalue hon).2]
  exact (exec_nameStep calls iodev).2

/-- All calls open the same file, and the name of the device is as before. -/
def NameKept (key : UInt64) (table : SigarCache SigarIodev) (calls : List DiskCall) : Prop :=
  (∃ path, (exec sysStep table calls).2 = replicate calls.length (some path)) ∧
    ((exec sysStep table calls).1.valueOf key).map SigarIodev.name =
      (table.valueOf key).map SigarIodev.name

/-- **No call keeps the name.** -/
theorem nameKept_iff (hk : Kept table) (hvalue : table.valueOf key = some iodev)
    (hon : ∀ call ∈ calls, call.IsOn key) : NameKept key table calls ↔ calls = [] := by
  constructor
  · rintro ⟨⟨path, hfiles⟩, hname⟩
    have hinside : calls.length ≤ iodev.digits := by
      refine (inside_iff hk hvalue hon).mp fun file hfile => ?_
      rw [hfiles] at hfile
      rw [eq_of_mem_replicate hfile]
      exact nofun
    -- the digits of the name are counted before and after
    rw [(exec_sysStep hk hvalue hon).1, hvalue, Option.map_some, Option.map_some,
      Option.some.injEq] at hname
    have hdigits : (exec nameStep iodev calls).1.digits = iodev.digits := by
      rw [SigarIodev.digits, hname, SigarIodev.digits]
    rw [(exec_nameStep calls iodev).1] at hdigits
    exact eq_nil_of_length_eq_zero (by omega)
  · rintro rfl
    exact ⟨⟨[], rfl⟩, rfl⟩

end Cached

/-- A call for /dev/sda12, and the cache of a handle that knows the device. -/
def sda12Call : DiskCall := ⟨rowsHost [] 2060, "/dev/sda12".toList⟩

def sda12Table : SigarCache SigarIodev := (sigarIodevGet sda12Call.host none sda12Call.name).1

theorem nameKept_sda12 : ¬ NameKept 2060 sda12Table [sda12Call] := by
  have hk : Kept sda12Table :=
    (sigarIodevGet_spec sda12Call.host sda12Call.name (openFsdev_none_kept _)).1.kept
  have hvalue : sda12Table.valueOf 2060 = some (.new "/dev/sda12".toList false) := by rfl
  have hon : ∀ call ∈ [sda12Call], call.IsOn 2060 := by
    intro call hcall
    rw [mem_singleton.mp hcall]
    exact ⟨_, rfl, rfl⟩
  intro h
  exact absurd ((nameKept_iff hk hvalue hon).mp h) (cons_ne_nil _ _)

/-- The second call is for another partition, and the third reads behind the name. -/
theorem sda12_files :
    (exec sysStep sda12Table [sda12Call, sda12Call, sda12Call]).2 =
      [some "/sys/block/sda/sda12/stat".toList, some "/sys/block/sda/sda2/stat".toList, none] ∧
    ¬ NameKept 2060 sda12Table [sda12Call, sda12Call, sda12Call] := by
  have hrun : (exec sysStep sda12Table [sda12Call, sda12Call, sda12Call]).2 =
      [some "/sys/block/sda/sda12/stat".toList, some "/sys/block/sda/sda2/stat".toList, none] := by
    decide +kernel
  refine ⟨hrun, ?_⟩
  rintro ⟨⟨path, hfiles⟩, -⟩
  rw [hrun] at hfiles
  have hlast := congrArg List.getLast? hfiles
  exact absurd hlast nofun

end Sigar.Disk
