/-
  Walking over the connections of a Linux host.

  Source: `hex2int`, `convert_hex_address`, `proc_net_read`, `sigar_net_connection_walk`,
  `proc_net_walker`, `sigar_net_connection_list_get` and `sigar_net_connection_get` of
  `os/linux/linux_sigar.c`.

  1. **The program** — a parser for the lines of /proc/net/tcp and its relatives, and a walk over
     up to six such files.
  2. **What a walk delivers** — `filesRead`: the rows of each file it opens.  The walk hands them
     to the callback file by file (`sigarNetConnectionWalk_eq`).
  3. **The break** — `walk_stops_iff`.  The callback's answer ends `proc_net_read`, which returns
     `SIGAR_OK`: the walk GOES ON with the next file.

  The array `buffer` of `proc_net_read` is not cleared between lines, and the parser steps over
  fixed widths, so a short line is completed by what the array held before.
-/
import Sigar.Util
import Sigar.Net.Connection

namespace Sigar.Net

open CString List

/-! ## A line of /proc/net/tcp -/

/-- `HEX_ENT_LEN`. -/
def hexEntLen : Nat := 8

/-- What a character adds to `hex2int`; `char` is signed. -/
def hexBits (c : Char) : UInt32 :=
  let ch : Int := if c.toNat < 128 then c.toNat else c.toNat - 256
  if c.isDigit then UInt32.ofInt (ch - 48)
  else if c.isUpper then UInt32.ofInt (ch - 55)
  else UInt32.ofInt (ch - 87)

/-- `hex2int`. -/
def hex2int (x : Text) (len : Nat) : UInt32 :=
  (range len).foldl (fun j i => j <<< 4 ||| hexBits (x.getD i nul)) 0

/-- `convert_hex_address`. -/
def convertHexAddress (ptr : Text) (len : Nat) : SigarNetAddress :=
  if hexEntLen < len then
    let word (i : Nat) := hex2int (ptr.drop (i * hexEntLen)) hexEntLen
    .inet6 (word 0) (word 1) (word 2) (word 3)
  else .inet (if len = hexEntLen then hex2int ptr hexEntLen else 0)

/-- `SKIP_WHILE`. -/
def skipWhile (p : Text) (c : Char) : Text := p.dropWhile (· == c)

/-- `SKIP_PAST`. -/
def skipPast (p : Text) (c : Char) : Text :=
  skipWhile (p.dropWhile fun x => x ≠ nul && x ≠ c) c

/-- An address and a port, `addr:port`: the address as a pointer and a length, the port, and what
    follows. -/
def addrPort (ptr : Text) : (Text × Nat) × UInt64 × Text :=
  let len := (ptr.takeWhile fun c => c ≠ nul && c ≠ ':').length
  let port := strtoulHex (skipWhile (ptr.drop len) ':')
  ((ptr, len), port.value &&& 0xffff, skipWhile port.rest ' ')

/-- The body of the loop of `proc_net_read`, up to the callback; `none` is a row that the flags
    do not ask for. -/
def procNetParse (flags : Int32) (type : NetconnType) (buffer : Text) :
    Option SigarNetConnection :=
  let ptr := skipPast (skipWhile buffer ' ') ' '  -- "%d: "
  let (laddr, localPort, ptr) := addrPort ptr
  let (raddr, remotePort, ptr) := addrPort ptr
  if ¬ (remotePort ≠ 0 ∧ flags &&& sigarNetconnClient ≠ 0 ∨
        remotePort = 0 ∧ flags &&& sigarNetconnServer ≠ 0) then none
  else
    let state := hex2int ptr 2
    let ptr := skipWhile (ptr.drop 2) ' '
    let sendQueue := hex2int ptr hexEntLen
    let ptr := ptr.drop (hexEntLen + 1)  -- tx + ':'
    let receiveQueue := hex2int ptr hexEntLen
    let ptr := skipWhile (ptr.drop hexEntLen) ' '
    let ptr := skipPast (skipPast ptr ' ') ' '                     -- tr:tm->whem, retrnsmt
    let uid := strtoull ptr
    let inode := strtoull (skipPast (skipWhile uid.rest ' ') ' ')  -- after timeout
    some {
      localPort := localPort
      localAddress := convertHexAddress laddr.1 laddr.2
      remotePort := remotePort
      remoteAddress := convertHexAddress raddr.1 raddr.2
      uid := uid.value.toUInt32
      inode := inode.value
      type := type
      state := state.toInt32
      sendQueue := sendQueue.toUInt64
      receiveQueue := receiveQueue.toUInt64
      pid := none }

/-! ## The walk -/

/-- A file of /proc/net: what `fopen` makes of it, and what the array `buffer` of the call that
    reads it holds at the start. -/
structure NetFile where
  content : Except Status Text
  frame : Text := []

/-- The files of a walk. -/
structure NetTables where
  tcp : NetFile
  tcp6 : NetFile
  udp : NetFile
  udp6 : NetFile
  raw : NetFile
  raw6 : NetFile

section Walk

variable {σ : Type} (addConnection : AddConnection σ) (flags : Int32)

/-- The loop of `proc_net_read`. -/
def procNetLoop (type : NetconnType) : Text → List Text → σ → σ
  | _, [], data => data
  | buffer, line :: lines, data =>
    let buffer := overwrite buffer line
    match procNetParse flags type buffer with
    | none => procNetLoop type buffer lines data
    | some conn =>
      let (data, more) := addConnection data conn
      if more ≠ sigarOk then data
      else procNetLoop type buffer lines data

/-- `proc_net_read`: the walker's data and the status.  A stop of the callback is `SIGAR_OK` too. -/
def procNetRead (file : NetFile) (type : NetconnType) (data : σ) : σ × Status :=
  match file.content with
  | .error errno => (data, errno)
  | .ok bytes =>
    match fgetsLines bufsiz bytes [] with
    | [] => (data, -1)  -- no header to skip
    | _ :: lines => (procNetLoop addConnection flags type file.frame lines data, sigarOk)

/-- The two files of a type: the second one may be missing. -/
def walkPair (type : NetconnType) (first second : NetFile) (data : σ) : σ × Status :=
  if flags &&& type.flag = 0 then (data, sigarOk)
  else
    let (data, status) := procNetRead addConnection flags first type data
    if status ≠ sigarOk then (data, status)
    else
      let (data, status) := procNetRead addConnection flags second type data
      if ¬ (status = sigarOk ∨ status = enoent) then (data, status)
      else (data, sigarOk)

/-- `sigar_net_connection_walk`. -/
def sigarNetConnectionWalk (tables : NetTables) (data : σ) : σ × Status :=
  let (data, status) := walkPair addConnection flags .tcp tables.tcp tables.tcp6 data
  if status ≠ sigarOk then (data, status)
  else
    let (data, status) := walkPair addConnection flags .udp tables.udp tables.udp6 data
    if status ≠ sigarOk then (data, status)
    else walkPair addConnection flags .raw tables.raw tables.raw6 data

end Walk

/-! ## The getters -/

/-- `net_conn_getter_t`. -/
structure NetConnGetter where
  connlist : Option (List SigarNetConnection)
  conn : Option SigarNetConnection
  port : UInt64

/-- `proc_net_walker`. -/
def procNetWalker (getter : NetConnGetter) (conn : SigarNetConnection) : NetConnGetter × Status :=
  match getter.connlist with
  | some connlist => ({ getter with connlist := some (connlist ++ [conn]) }, sigarOk)
  | none =>
    if getter.port = conn.localPort ∧ conn.remotePort = 0 then
      ({ getter with conn := some conn }, 1)  -- break loop
    else (getter, sigarOk)                    -- continue loop

/-- `sigar_net_connection_list_get`: the status, and the list if it is `SIGAR_OK`. -/
def sigarNetConnectionListGet (tables : NetTables) (flags : Int32) :
    Except Status (List SigarNetConnection) :=
  let (getter, status) :=
    sigarNetConnectionWalk procNetWalker flags tables ⟨some [], none, 0⟩
  if status ≠ sigarOk then .error status else .ok (getter.connlist.getD [])

/-- The getter of `sigar_net_connection_get`. -/
def NetConnGetter.forPort (port : UInt64) (conn : SigarNetConnection) : NetConnGetter :=
  ⟨none, some conn, port⟩

/-- `sigar_net_connection_get`: what it leaves in `netconn`, and the status. -/
def sigarNetConnectionGet (tables : NetTables) (netconn : SigarNetConnection) (port : UInt64)
    (flags : Int32) : SigarNetConnection × Status :=
  let (getter, status) :=
    sigarNetConnectionWalk procNetWalker flags tables (.forPort port netconn)
  (getter.conn.getD netconn, status)

/-! ## What a walk delivers -/

/-- The rows that a file's lines come to. -/
def lineRows (flags : Int32) (type : NetconnType) :
    Text → List Text → List SigarNetConnection
  | _, [] => []
  | buffer, line :: lines =>
    let buffer := overwrite buffer line
    match procNetParse flags type buffer with
    | none => lineRows flags type buffer lines
    | some conn => conn :: lineRows flags type buffer lines

/-- The rows of a file, none if it cannot be read. -/
def NetFile.rows (file : NetFile) (flags : Int32) (type : NetconnType) : List SigarNetConnection :=
  match file.content with
  | .error _ => []
  | .ok bytes => lineRows flags type file.frame (fgetsLines bufsiz bytes []).tail

/-- What `proc_net_read` returns for a file. -/
def NetFile.status (file : NetFile) : Status :=
  match file.content with
  | .error errno => errno
  | .ok bytes => if fgetsLines bufsiz bytes [] = [] then -1 else sigarOk

/-- The rows of each of the two files of a type that is read, and the status. -/
def pairRead (flags : Int32) (type : NetconnType) (first second : NetFile) :
    List (List SigarNetConnection) × Status :=
  if flags &&& type.flag = 0 then ([], sigarOk)
  else if first.status ≠ sigarOk then ([first.rows flags type], first.status)
  else ([first.rows flags type, second.rows flags type],
    if second.status = enoent then sigarOk else second.status)

/-- **The rows of each file that a walk reads**, and the status it ends with. -/
def filesRead (flags : Int32) (tables : NetTables) : List (List SigarNetConnection) × Status :=
  let tcp := pairRead flags .tcp tables.tcp tables.tcp6
  if tcp.2 ≠ sigarOk then tcp
  else
    let udp := pairRead flags .udp tables.udp tables.udp6
    if udp.2 ≠ sigarOk then (tcp.1 ++ udp.1, udp.2)
    else
      let raw := pairRead flags .raw tables.raw tables.raw6
      (tcp.1 ++ udp.1 ++ raw.1, raw.2)

/-- The connections in walk order. -/
def walkOrder (flags : Int32) (tables : NetTables) : List SigarNetConnection :=
  (filesRead flags tables).1.flatten

section Deliver

open Visit

variable {σ : Type} (addConnection : AddConnection σ) (flags : Int32)

theorem procNetLoop_eq (type : NetconnType) : ∀ (lines : List Text) (buffer : Text)
    (data : σ), procNetLoop addConnection flags type buffer lines data
      = (visit isOk addConnection (lineRows flags type buffer lines) data).1 := by
  intro lines
  induction lines with
  | nil => intro buffer data; rfl
  | cons line lines ih =>
    intro buffer data
    rw [procNetLoop, lineRows]
    dsimp only
    cases procNetParse flags type (overwrite buffer line) with
    | none => exact ih _ data
    | some conn =>
      dsimp only
      rw [visit]
      by_cases hmore : (addConnection data conn).2 = sigarOk
      · rw [if_neg (not_not_intro hmore), if_pos (isOk_iff.mpr hmore)]
        exact ih _ _
      · rw [if_pos hmore, if_neg fun h => hmore (isOk_iff.mp h)]

theorem procNetRead_eq (file : NetFile) (type : NetconnType) (data : σ) :
    procNetRead addConnection flags file type data
      = ((visit isOk addConnection (file.rows flags type) data).1, file.status) := by
  unfold procNetRead NetFile.rows NetFile.status
  cases file.content with
  | error errno => rfl
  | ok bytes =>
    dsimp only
    cases fgetsLines bufsiz bytes [] with
    | nil => rfl
    | cons header lines => simp [procNetLoop_eq]

theorem walkPair_eq (type : NetconnType) (first second : NetFile) (data : σ) :
    walkPair addConnection flags type first second data
      = (visitAll isOk addConnection (pairRead flags type first second).1 data,
          (pairRead flags type first second).2) := by
  unfold walkPair pairRead
  by_cases hflag : flags &&& type.flag = 0
  · rw [if_pos hflag, if_pos hflag]
    rfl
  · rw [if_neg hflag, if_neg hflag, procNetRead_eq]
    dsimp only
    by_cases hfirst : first.status = sigarOk
    · rw [if_neg (not_not_intro hfirst), if_neg (not_not_intro hfirst), procNetRead_eq]
      dsimp only
      by_cases hmissing : second.status = enoent
      · rw [if_neg (not_not_intro (Or.inr hmissing)), if_pos hmissing]
        rfl
      · rw [if_neg hmissing]
        by_cases hsecond : second.status = sigarOk
        · rw [if_neg (not_not_intro (Or.inl hsecond)), hsecond]
          rfl
        · rw [if_pos (fun h => h.elim hsecond hmissing)]
          rfl
    · rw [if_pos hfirst, if_pos hfirst]
      rfl

/-- **A walk hands over the rows of its files one after the other**, whatever is answered. -/
theorem sigarNetConnectionWalk_eq (tables : NetTables) (data : σ) :
    sigarNetConnectionWalk addConnection flags tables data
      = (visitAll isOk addConnection (filesRead flags tables).1 data,
          (filesRead flags tables).2) := by
  unfold sigarNetConnectionWalk filesRead
  rw [walkPair_eq]
  dsimp only
  by_cases htcp : (pairRead flags .tcp tables.tcp tables.tcp6).2 = sigarOk
  · grind [walkPair_eq, visitAll_append]
  · rw [if_pos htcp, if_pos htcp]

/-- What a walk over these files delivers. -/
def linuxWalk (tables : NetTables) : Walk := ⟨walkOrder flags tables, (filesRead flags tables).2⟩

theorem sigarNetConnectionWalk_run (hgo : ∀ data conn, isOk (addConnection data conn).2 = true)
    (tables : NetTables) (data : σ) :
    sigarNetConnectionWalk addConnection flags tables data
      = (linuxWalk flags tables).run addConnection data := by
  rw [sigarNetConnectionWalk_eq, visitAll_eq_foldl isOk addConnection hgo]
  unfold Walk.run
  rw [visit_eq_foldl isOk addConnection hgo]
  rfl

end Deliver

section Rows

variable {flags : Int32} {P : SigarNetConnection → Prop}
  (hparse : ∀ type buffer conn, procNetParse flags type buffer = some conn → P conn)

include hparse

theorem lineRows_forall (type : NetconnType) : ∀ (lines : List Text) (buffer : Text),
    ∀ conn ∈ lineRows flags type buffer lines, P conn := by
  intro lines
  induction lines with
  | nil => intro buffer conn hconn; cases hconn
  | cons line lines ih => grind [lineRows]

theorem rows_forall (file : NetFile) (type : NetconnType) :
    ∀ conn ∈ file.rows flags type, P conn := by
  intro conn hconn
  unfold NetFile.rows at hconn
  cases hcontent : file.content with
  | error errno => rw [hcontent] at hconn; cases hconn
  | ok bytes => rw [hcontent] at hconn; exact lineRows_forall hparse type _ _ conn hconn

theorem pairRead_forall (type : NetconnType) (first second : NetFile) :
    ∀ rows ∈ (pairRead flags type first second).1, ∀ conn ∈ rows, P conn := by
  intro rows hmem
  unfold pairRead at hmem
  split at hmem
  · cases hmem
  · split at hmem
    · obtain rfl := mem_singleton.mp hmem
      exact rows_forall hparse first type
    · rcases mem_pair.mp hmem with rfl | rfl
      · exact rows_forall hparse first type
      · exact rows_forall hparse second type

theorem filesRead_forall (tables : NetTables) :
    ∀ rows ∈ (filesRead flags tables).1, ∀ conn ∈ rows, P conn := by
  intro rows hmem
  unfold filesRead at hmem
  dsimp only at hmem
  split at hmem
  · exact pairRead_forall hparse _ _ _ rows hmem
  · split at hmem
    · rcases mem_append.mp hmem with hmem | hmem
      · exact pairRead_forall hparse _ _ _ rows hmem
      · exact pairRead_forall hparse _ _ _ rows hmem
    · rcases mem_append.mp hmem with hmem | hmem
      · rcases mem_append.mp hmem with hmem | hmem
        · exact pairRead_forall hparse _ _ _ rows hmem
        · exact pairRead_forall hparse _ _ _ rows hmem
      · exact pairRead_forall hparse _ _ _ rows hmem

/-- What holds of every row that the parser makes holds of every row of a walk. -/
theorem walkOrder_forall (tables : NetTables) : ∀ conn ∈ walkOrder flags tables, P conn := by
  intro conn hconn
  obtain ⟨rows, hmem, hrow⟩ := mem_flatten.mp hconn
  exact filesRead_forall hparse tables rows hmem conn hrow

end Rows

/-! ## The break -/

/-- The row that `sigar_net_connection_get` is for. -/
def opensPort (port : UInt64) (conn : SigarNetConnection) : Bool :=
  port = conn.localPort ∧ conn.remotePort = 0

/-- The first row for a port in each file that has one. -/
def firstOpens (flags : Int32) (tables : NetTables) (port : UInt64) : List SigarNetConnection :=
  (filesRead flags tables).1.filterMap fun rows => rows.find? (opensPort port)

/-- `proc_net_walker` without a list: it keeps the first row for the port and stops. -/
def keepOpen (port : UInt64) (kept : SigarNetConnection) (conn : SigarNetConnection) :
    SigarNetConnection × Status :=
  if opensPort port conn then (conn, 1) else (kept, sigarOk)

theorem procNetWalker_port (port : UInt64) (kept conn : SigarNetConnection) :
    procNetWalker (.forPort port kept) conn
      = (.forPort port (keepOpen port kept conn).1, (keepOpen port kept conn).2) := by
  unfold procNetWalker keepOpen NetConnGetter.forPort
  by_cases hopens : opensPort port conn = true
  · rw [if_pos hopens]
    exact if_pos (of_decide_eq_true hopens)
  · rw [if_neg hopens]
    exact if_neg (of_decide_eq_false (Bool.eq_false_iff.mpr hopens))

/-- **What `sigar_net_connection_get` leaves**: the first row for the port in the LAST file that
    has one. -/
theorem sigarNetConnectionGet_eq (tables : NetTables) (netconn : SigarNetConnection)
    (port : UInt64) (flags : Int32) :
    sigarNetConnectionGet tables netconn port flags
      = ((firstOpens flags tables port).getLast?.getD netconn, (filesRead flags tables).2) := by
  have hembed : Visit.visitAll isOk procNetWalker (filesRead flags tables).1
        (.forPort port netconn)
      = .forPort port (Visit.visitAll isOk (keepOpen port) (filesRead flags tables).1 netconn) :=
    Visit.visitAll_embed (procNetWalker_port port) (filesRead flags tables).1 netconn
  have hkeep : Visit.visitAll isOk (keepOpen port) (filesRead flags tables).1 netconn
      = (firstOpens flags tables port).getLast?.getD netconn := by
    refine Visit.visitAll_search ?_ ?_ (filesRead flags tables).1 netconn
    · intro kept conn hopens
      have hstop : keepOpen port kept conn = (conn, 1) := if_pos hopens
      rw [hstop]
      exact ⟨rfl, rfl⟩
    · intro kept conn hopens
      have hon : keepOpen port kept conn = (kept, sigarOk) := if_neg (Bool.eq_false_iff.mp hopens)
      rw [hon]
      exact ⟨rfl, rfl⟩
  unfold sigarNetConnectionGet
  rw [sigarNetConnectionWalk_eq]
  dsimp only
  rw [hembed, hkeep]
  rfl

theorem mem_firstOpens {flags : Int32} {tables : NetTables} {port : UInt64}
    {conn : SigarNetConnection} (h : conn ∈ firstOpens flags tables port) :
    opensPort port conn = true := by
  obtain ⟨rows, _, hfind⟩ := mem_filterMap.mp h
  exact find?_some hfind

theorem find?_walkOrder (flags : Int32) (tables : NetTables) (port : UInt64) :
    (walkOrder flags tables).find? (opensPort port) = (firstOpens flags tables port).head? :=
  Visit.find?_flatten_eq_head? (opensPort port) (filesRead flags tables).1

/-- **Breaking out of a walk.**  A callback that stops is not called again exactly when no file
    after the one it stopped in has a row; and the row of `sigar_net_connection_get` is the first
    one in walk order exactly when the last file with a row for the port starts with the same one
    as the first. -/
theorem walk_stops_iff {σ : Type} (tables : NetTables) (flags : Int32)
    (addConnection : AddConnection σ) (data : σ) (netconn : SigarNetConnection) (port : UInt64) :
    (Visit.StopsForGood isOk
        (sigarNetConnectionWalk (Visit.logged addConnection) flags tables (data, [])).1.2 ↔
      Visit.StopsInLast isOk addConnection (filesRead flags tables).1 data) ∧
    ((sigarNetConnectionGet tables netconn port flags).1
        = ((walkOrder flags tables).find? (opensPort port)).getD netconn ↔
      (firstOpens flags tables port).getLast? = (firstOpens flags tables port).head?) := by
  constructor
  · rw [sigarNetConnectionWalk_eq]
    exact Visit.stopsForGood_iff (filesRead flags tables).1 data
  · rw [sigarNetConnectionGet_eq, find?_walkOrder]
    cases firstOpens flags tables port with
    | nil => exact iff_of_true rfl rfl
    | cons conn rest =>
      rw [getLast?_eq_some_getLast (cons_ne_nil conn rest), head?_cons, Option.some.injEq]
      exact Iff.rfl

/-- A file with one socket that listens on port 80 of an address. -/
def portEighty (addr inode : String) : NetFile where
  content := .ok ("sl\n 0: " ++ addr ++ ":0050 " ++ addr ++ ":0000 0A 00000000:00000000 "
    ++ "00:00000000 00000000 0 0 " ++ inode).toList

/-- Port 80 over IPv4 (inode 1) and over IPv6 (inode 2), and no other socket. -/
def bothEighty : NetTables where
  tcp := portEighty "00000000" "1"
  tcp6 := portEighty "00000000000000000000000000000000" "2"
  udp := ⟨.ok "sl\n".toList, []⟩
  udp6 := ⟨.error enoent, []⟩
  raw := ⟨.error enoent, []⟩
  raw6 := ⟨.error enoent, []⟩

/-- **The callback that stops at the first row is called for the second one**, and the row for
    port 80 is the second one. -/
theorem bothEighty_goesOn :
    ((sigarNetConnectionWalk (Visit.logged fun (_ : Unit) _ => ((), 1)) 0x12 bothEighty
        ((), [])).1.2.map fun call => (call.1.inode, call.2)) = [(1, 1), (2, 1)] ∧
    (sigarNetConnectionGet bothEighty .zero 80 0x12).1.inode = 2 ∧
    ((walkOrder 0x12 bothEighty).find? (opensPort 80)).map (·.inode) = some 1 := by
  decide +kernel

end Sigar.Net
