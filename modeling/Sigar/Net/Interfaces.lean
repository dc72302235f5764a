/-
  The list of the network interfaces.

  Source: `sigar_net_interface_list_get`, `proc_net_interface_list_get`, `has_interface` and
  `sigar_close` of `sigar.c`, and `SIGAR_NET_IFLIST_GROW`.

  The kernel writes its table into a buffer that STAYS WITH THE HANDLE.  The buffer is made larger
  by twenty entries in every round in which the table may not have fitted; that is seen from the
  length of the answer only.  On an error the buffer is freed, and the handle keeps its address.
  Devices of /proc/net/dev that are not in the table follow behind it.

  Memory is allocated whenever it is asked for.  An address that is used or freed when no block is
  there, a length that is no `int`, and an index outside of the list are faults.
-/
import Sigar.Util
import Sigar.Lib.Blocks
import Sigar.Lib.Loop

namespace Sigar.Net

open CString Blocks Loop

/-! ## The buffer of the handle -/

/-- `sizeof(struct ifreq)`, where pointers have eight bytes. -/
def sizeofIfreq : Nat := 40
/-- `SIGAR_NET_IFLIST_MAX`. -/
def sigarNetIflistMax : Nat := 20

/-- Where the calls leave the defined behaviour of C, or do not come to an end. -/
inductive IfFault where
  | freed     -- the buffer is used or freed, and it is not there
  | overflow  -- `ifconf_len` above `INT_MAX`
  | outside   -- `data[number]` outside of the list
  | rounds    -- more rounds than the loop was given
  deriving DecidableEq

/-- `ifconf_buf` and `ifconf_len`, which is an `int`. -/
structure IfBuffer where
  ifconfBuf : Option Nat
  ifconfLen : Nat
  fits : ifconfLen ≤ intMax

/-- The heap and the part of the handle. -/
structure IfState where
  heap : Heap
  buf : IfBuffer

/-- What `sigar_open` leaves. -/
def IfState.opened : IfState := ⟨.empty, none, 0, Nat.zero_le _⟩

/-- What `ioctl(SIOCGIFCONF)` does: `ifc_len` and the names in the buffer, or `errno`. -/
inductive IfconfAnswer where
  | filled (ifcLen : Nat) (ifrName : Nat → Text)
  | failed (errno : Status)

/-- The world of one call.  `ioctl` is asked with the number of the round and `ifc_len`. -/
structure IfHost where
  socket : Option Status  -- `errno`, if there is none
  ioctl : Nat → Nat → IfconfAnswer
  netDev : Option Text    -- `/proc/net/dev`, if it opens

/-- The length to which the buffer is grown. -/
def grownLen (len : Nat) : Nat := len + sizeofIfreq * sigarNetIflistMax

/-- The buffer is made larger. -/
def growBuffer (st : IfState) : Except IfFault IfState :=
  if h : grownLen st.buf.ifconfLen ≤ intMax then
    (realloc .freed st.heap st.buf.ifconfBuf (grownLen st.buf.ifconfLen)).map fun (heap, addr) =>
      ⟨heap, some addr, grownLen st.buf.ifconfLen, h⟩
  else .error .overflow

/-- `ioctl` reads and writes the buffer. -/
def useBuffer (st : IfState) : Except IfFault Unit :=
  match st.buf.ifconfBuf with
  | none => .ok ()
  | some addr => use .freed st.heap addr

/-- `free(ifc.ifc_buf)`: the handle is NOT told. -/
def freeBuffer (st : IfState) : Except IfFault IfState :=
  match st.buf.ifconfBuf with
  | none => .ok st
  | some addr => (free .freed st.heap addr).map (⟨·, st.buf⟩)

/-- `sigar_close`, as far as the buffer goes. -/
def sigarClose (st : IfState) : Except IfFault IfState := freeBuffer st

/-! ## The rounds -/

/-- How the rounds end. -/
inductive IfconfEnd where
  | got (ifcLen : Nat) (ifrName : Nat → Text)
  | status (errno : Status)

/-- The variables of the loop. -/
structure IfLoop where
  st : IfState
  lastlen : Nat
  asked : Nat
  ended : Option IfconfEnd

/-- What the loop does with the answer to a round. -/
def ifconfAnswer (s : IfLoop) (st : IfState) : IfconfAnswer → Except IfFault IfLoop
  | .filled ifcLen ifrName =>
    if ifcLen < st.buf.ifconfLen then  -- got em all
      .ok ⟨st, s.lastlen, s.asked + 1, some (.got ifcLen ifrName)⟩
    else if ifcLen ≠ s.lastlen then    -- might be more
      .ok ⟨st, ifcLen, s.asked + 1, none⟩
    else .ok ⟨st, s.lastlen, s.asked + 1, some (.got ifcLen ifrName)⟩
  | .failed errno =>
    -- `ifc_len` still is the length of the buffer
    if errno ≠ einval ∨ s.lastlen = st.buf.ifconfLen then
      (freeBuffer st).map fun st => ⟨st, s.lastlen, s.asked + 1, some (.status errno)⟩
    else .ok ⟨st, st.buf.ifconfLen, s.asked + 1, none⟩

/-- The start of a round: `if (!sigar->ifconf_buf || lastlen)`. -/
def readyBuffer (s : IfLoop) : Except IfFault IfState :=
  if s.st.buf.ifconfBuf.isNone ∨ s.lastlen ≠ 0 then growBuffer s.st else .ok s.st

/-- One round. -/
def ifconfRound (ioctl : Nat → Nat → IfconfAnswer) (s : IfLoop) : Except IfFault IfLoop := do
  let st ← readyBuffer s
  useBuffer st
  ifconfAnswer s st (ioctl s.asked st.buf.ifconfLen)

def IfLoop.live (s : IfLoop) : Bool := s.ended.isNone

/-- The variables before the first round. -/
def IfLoop.start (st : IfState) : IfLoop := ⟨st, 0, 0, none⟩

/-! ## The list -/

/-- `sigar_net_interface_list_t`; `number` is the length of `data`. -/
structure IfList where
  size : Nat
  data : List Text

/-- `iflist->data[iflist->number++] = name`. -/
def IfList.push (list : IfList) (name : Text) : Except IfFault IfList :=
  if list.data.length < list.size then .ok { list with data := list.data ++ [name] }
  else .error .outside

/-- `SIGAR_NET_IFLIST_GROW`. -/
def IfList.grow (list : IfList) : IfList :=
  if list.size ≤ list.data.length then { list with size := list.size + sigarNetIflistMax }
  else list

/-- The loop over the entries of the buffer: `ifc_len` bytes, in steps of an entry.  The list is as
    large as the answer has BYTES. -/
def copyEntries (ifcLen : Nat) (ifrName : Nat → Text) : Except IfFault IfList :=
  (List.range ((ifcLen + (sizeofIfreq - 1)) / sizeofIfreq)).foldlM (fun list i => list.push (ifrName i))
    ⟨ifcLen, []⟩

/-- `has_interface`. -/
def hasInterface (list : IfList) (name : Text) : Bool := list.data.contains name

/-- The device that a line of /proc/net/dev names: what stands before the first colon, without the
    blanks before it. -/
def deviceOf (line : Text) : Option Text :=
  let dev := line.dropWhile isSpace
  (strchr dev ':').map fun ptr => dev.take (dev.length - ptr.length)

/-- One line of /proc/net/dev. -/
def addDevice (list : IfList) (line : Text) : Except IfFault IfList :=
  match deviceOf line with
  | none => .ok list
  | some dev => if hasInterface list dev then .ok list else list.grow.push dev

/-- `proc_net_interface_list_get`.  Without two lines of header nothing is read, and the status is
    not looked at. -/
def procNetInterfaceListGet (list : IfList) : Option Text → Except IfFault IfList
  | none => .ok list
  | some text =>
    let lines := fgetsLines bufsiz text []
    if lines.length < 2 then .ok list else (lines.drop 2).foldlM addDevice list

/-- What follows the rounds. -/
def ifListOf (host : IfHost) : Option IfconfEnd → Except IfFault (Except Status IfList)
  | some (.got ifcLen ifrName) => do
    let list ← copyEntries ifcLen ifrName
    let list ← procNetInterfaceListGet list host.netDev
    .ok (.ok list)
  | some (.status errno) => .ok (.error errno)
  | none => .error .rounds

/-- `sigar_net_interface_list_get`, with a bound on the rounds. -/
def sigarNetInterfaceListGet (rounds : Nat) (host : IfHost) (st : IfState) :
    Except IfFault (IfState × Except Status IfList) :=
  match host.socket with
  | some errno => .ok (st, .error errno)
  | none => do
    let s ← iterate IfLoop.live (ifconfRound host.ioctl) .rounds rounds (.start st)
    let list ← ifListOf host s.ended
    .ok (s.st, list)

/-- The call comes to an end, without a fault. -/
def Returns (host : IfHost) (st st' : IfState) (r : Except Status IfList) : Prop :=
  ∃ rounds, sigarNetInterfaceListGet rounds host st = .ok (st', r)

end Sigar.Net
