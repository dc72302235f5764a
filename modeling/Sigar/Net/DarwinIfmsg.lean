/-
  The interfaces of a Darwin host.

  Source: `sigar_ifmsg_init`, `sigar_ifmsg_iter`, `sigar_net_interface_list_get` and the lookups by name
  of `sigar_net_interface_stat_get` and `sigar_net_interface_config_get` of `os/darwin/darwin_sigar.c`.

  The kernel gives the interfaces as messages, one behind the other.  They are read into a buffer of the
  handle that only GROWS, and the walk goes to the end of the buffer, not of what was read.  A lookup
  for the configuration reads them only while the buffer is empty: any later one walks over what an
  earlier call has left there.

  1. **Program** — bytes; what lies behind the buffer is read as 0.
  2. **Walk** (`ifmsgLoop_table`) — over a table of messages the walk visits its interfaces and comes to
     what lies behind it.
  3. **Result** — if the walk is over the table of the host and nothing behind that looks like a message,
     a list or a lookup depends on the table alone, in every step of every run (`darwin_run_current`).
-/
import Sigar.Base
import Sigar.Lib.Runs
import Mathlib.Data.List.GetD

namespace Sigar.Net.Darwin

open Runs List

variable {type : UInt8}

/-! ## The program -/

abbrev Bytes := List UInt8

variable {m rest : Bytes}

def byteAt (ptr : Bytes) (i : Nat) : UInt8 := ptr.getD i 0

/-- `ifm_msglen` and `ifm_type`. -/
def msglen (ptr : Bytes) : Nat := (byteAt ptr 0).toNat + 256 * (byteAt ptr 1).toNat
@[inherit_doc msglen] def msgtype (ptr : Bytes) : UInt8 := byteAt ptr 3

/-- `RTM_IFINFO` and `RTM_NEWADDR`. -/
def rtmIfinfo : UInt8 := 14
@[inherit_doc rtmIfinfo] def rtmNewaddr : UInt8 := 12

/-- The `sockaddr_dl` behind the header: `sdl_family`, `sdl_type`, and `sdl_nlen` bytes of
    `sdl_data`. -/
def sdlFamily (ifm : Bytes) : UInt8 := byteAt ifm 113
@[inherit_doc sdlFamily] def sdlType (ifm : Bytes) : UInt8 := byteAt ifm 116
@[inherit_doc sdlFamily] def sdlNlen (ifm : Bytes) : Nat := (byteAt ifm 117).toNat
@[inherit_doc sdlFamily] def sdlName (ifm : Bytes) : Bytes := (ifm.drop 120).take (sdlNlen ifm)

/-- The inner loop, over the addresses of an interface; `none` if it does not end. -/
def skipAddrs : Nat → Bytes → Option Bytes
  | 0, _ => none
  | fuel + 1, ptr =>
    if ptr ≠ [] ∧ msgtype ptr = rtmNewaddr then skipAddrs fuel (ptr.drop (msglen ptr)) else some ptr

section Iter

variable {σ ρ : Type} (body : σ → Bytes → Except ρ σ)

/-- The loop of `sigar_ifmsg_iter`; the body can return. -/
def ifmsgLoop : Nat → Bytes → σ → Option (Except ρ σ)
  | 0, _, _ => none
  | fuel + 1, ptr, s =>
    if ptr = [] ∨ msgtype ptr ≠ rtmIfinfo then some (.ok s)
    else match skipAddrs fuel (ptr.drop (msglen ptr)) with
      | none => none
      | some next => match body s ptr with
        | .error r => some (.error r)
        | .ok s => ifmsgLoop fuel next s

end Iter

/-- What a list takes of an interface; `hasIfaddr` is `has_ifaddr`. -/
def listedName (hasIfaddr : Bytes → Bool) (ifm : Bytes) : Option Bytes :=
  if sdlFamily ifm ≠ 18 then none                                     -- AF_LINK
  else if sdlType ifm = 1 then                                        -- IFT_OTHER
    if hasIfaddr (sdlName ifm) then some (sdlName ifm) else none
  else if sdlType ifm = 6 ∨ sdlType ifm = 24 then some (sdlName ifm)  -- IFT_ETHER, IFT_LOOP
  else none

/-- Whether a lookup takes an interface. -/
def isNamed (name ifm : Bytes) : Bool := sdlFamily ifm = 18 ∧ sdlName ifm = name

/-- The cases of `sigar_ifmsg_iter`: a list goes on, a lookup returns the message that it finds. -/
def listBody (hasIfaddr : Bytes → Bool) (names : List Bytes) (ifm : Bytes) :
    Except Unit (List Bytes) :=
  .ok (names ++ (listedName hasIfaddr ifm).toList)
@[inherit_doc listBody] def getBody (name : Bytes) (_ : Unit) (ifm : Bytes) : Except Bytes Unit :=
  if isNamed name ifm then .error (ifm.take (msglen ifm)) else .ok ()

/-- The calls that walk over the messages. -/
inductive Request where
  | list                   -- `sigar_net_interface_list_get`
  | stat (name : Bytes)    -- the lookup of `sigar_net_interface_stat_get`
  | config (name : Bytes)  -- the lookup of `sigar_net_interface_config_get`

/-- The name that is looked up. -/
def Request.name : Request → Option Bytes
  | .list => none
  | .stat name | .config name => some name

/-- Whether `sigar_ifmsg_init` is called: for a configuration, if `ifconf_len` is 0. -/
def Request.fetches (buf : Bytes) : Request → Bool
  | .list | .stat _ => true
  | .config _ => buf.isEmpty

/-- A call, and what `sysctl` does, or would do: the length it estimates, the bytes that it then copies,
    of which there are not more, and what a larger buffer has in its new bytes. -/
structure IfmsgCall where
  request : Request
  estimate : Except Status Nat
  copied : Bytes
  failed : Option Status
  grown : Bytes
  hasIfaddr : Bytes → Bool
  fits : ∀ len, estimate = .ok len → copied.length ≤ len

/-- `ENXIO`. -/
def enxio : Status := 6

/-- `sigar_ifmsg_init`: the buffer, and the status if it fails. -/
def sigarIfmsgInit (buf : Bytes) (call : IfmsgCall) : Bytes × Option Status :=
  match call.estimate with
  | .error errno => (buf, some errno)
  | .ok len =>
    let buf := buf ++ (call.grown ++ replicate len 0).take (len - buf.length)
    (call.copied ++ buf.drop call.copied.length, call.failed)

/-- What a call returns. -/
inductive Answer where
  | names (names : List Bytes)
  | message (ifm : Bytes)
  | failed (status : Status)
  | noEnd
  deriving DecidableEq

/-- `sigar_ifmsg_iter` over the buffer. -/
def sigarIfmsgIter (buf : Bytes) (call : IfmsgCall) : Answer :=
  match call.request.name with
  | none => match ifmsgLoop (listBody call.hasIfaddr) (buf.length + 1) buf [] with
    | some (.ok names) => .names names
    | _ => .noEnd
  | some name => match ifmsgLoop (getBody name) (buf.length + 1) buf () with
    | none => .noEnd
    | some (.error ifm) => .message ifm
    | some (.ok _) => .failed enxio

/-- What a call walks over, and the status if it does not come to that. -/
def loaded (buf : Bytes) (call : IfmsgCall) : Bytes × Option Status :=
  if call.request.fetches buf then sigarIfmsgInit buf call else (buf, none)

/-- A call: the buffer that it leaves, and its answer. -/
def step (buf : Bytes) (call : IfmsgCall) : Bytes × Answer :=
  let (buf, failed) := loaded buf call
  match failed with
  | some status => (buf, .failed status)
  | none => (buf, sigarIfmsgIter buf call)

/-! ## Tables -/

/-- A message of the kernel. -/
def IsMessage (type : UInt8) (bytes : Bytes) : Prop :=
  4 ≤ bytes.length ∧ msglen bytes = bytes.length ∧ msgtype bytes = type

/-- An interface of a table: its message, with all of its name, and those of its addresses. -/
structure Interface where
  info : Bytes
  addrs : List Bytes
  isInfo : IsMessage rtmIfinfo info
  named : 120 + sdlNlen info ≤ info.length
  isAddrs : ∀ addr ∈ addrs, IsMessage rtmNewaddr addr

def Interface.bytes (i : Interface) : Bytes := i.info ++ i.addrs.flatten

/-- **The answer for a table.** -/
def answerFor (table : List Interface) (call : IfmsgCall) : Answer :=
  match call.request.name with
  | none => .names (table.filterMap fun i => listedName call.hasIfaddr i.info)
  | some name => match table.find? fun i => isNamed name i.info with
    | some i => .message i.info
    | none => .failed enxio

/-- **A call depends on the table that the host has and on nothing else**, unless it asks for the table
    and that fails. -/
def Current (buf : Bytes) (call : IfmsgCall) : Prop :=
  ∀ table : List Interface, call.copied = table.flatMap Interface.bytes →
    (step buf call).2 = match call.request.fetches buf, call.estimate, call.failed with
      | true, .error errno, _ => .failed errno
      | true, .ok _, some status => .failed status
      | _, _, _ => answerFor table call

/-- What lies behind a table does not look like a message of it. -/
def Quiet (rest : Bytes) : Prop :=
  rest = [] ∨ msgtype rest ≠ rtmIfinfo ∧ msgtype rest ≠ rtmNewaddr

instance (rest : Bytes) : Decidable (Quiet rest) := inferInstanceAs (Decidable (_ ∨ _))

/-- **Nothing of an earlier table is left**: the walk is over the table that the host has, and nothing
    behind that looks like a message.  A table that has just been read stands at the start of the
    buffer; one that has not must still be the same. -/
def NothingLeft (buf : Bytes) (call : IfmsgCall) : Prop :=
  (call.request.fetches buf = false → call.copied <+: buf) ∧
    Quiet ((loaded buf call).1.drop call.copied.length)

instance (buf : Bytes) (call : IfmsgCall) : Decidable (NothingLeft buf call) :=
  inferInstanceAs (Decidable (_ ∧ _))

/-! ## The walk -/

theorem byteAt_append {a : Bytes} {i : Nat} (h : i < a.length) (rest : Bytes) :
    byteAt (a ++ rest) i = byteAt a i := getD_append _ _ _ _ h

theorem IsMessage.msglen_append (h : IsMessage type m) (rest : Bytes) :
    msglen (m ++ rest) = m.length := by
  obtain ⟨hsize, hlen, -⟩ := h
  rw [← hlen, msglen, msglen, byteAt_append (by omega), byteAt_append (by omega)]

theorem IsMessage.msgtype_append (h : IsMessage type m) (rest : Bytes) :
    msgtype (m ++ rest) = type := by
  rw [msgtype, byteAt_append (by have := h.1; omega)]
  exact h.2.2

theorem IsMessage.append_ne_nil (h : IsMessage type m) (rest : Bytes) : m ++ rest ≠ [] := by
  have := h.1
  intro hnil
  rw [(append_eq_nil_iff.mp hnil).1] at this
  cases this

/-- The addresses of an interface are skipped. -/
theorem skipAddrs_addrs (hrest : rest = [] ∨ msgtype rest ≠ rtmNewaddr) :
    ∀ {addrs : List Bytes} {fuel : Nat}, (∀ addr ∈ addrs, IsMessage rtmNewaddr addr) →
      addrs.flatten.length < fuel → skipAddrs fuel (addrs.flatten ++ rest) = some rest := by
  intro addrs
  induction addrs with
  | nil =>
    intro fuel _ hfuel
    obtain ⟨fuel, rfl⟩ := Nat.exists_eq_add_one_of_ne_zero (Nat.ne_of_gt (Nat.zero_lt_of_lt hfuel))
    rw [skipAddrs]
    exact if_neg fun h => hrest.elim h.1 fun hne => hne h.2
  | cons addr addrs ih =>
    intro fuel haddrs hfuel
    have haddr := haddrs addr mem_cons_self
    have hsize := haddr.1
    obtain ⟨fuel, rfl⟩ := Nat.exists_eq_add_one_of_ne_zero (Nat.ne_of_gt (Nat.zero_lt_of_lt hfuel))
    rw [flatten_cons, length_append] at hfuel
    rw [flatten_cons, append_assoc, skipAddrs,
      if_pos ⟨haddr.append_ne_nil _, haddr.msgtype_append _⟩, haddr.msglen_append, drop_left]
    exact ih (fun a ha => haddrs a (mem_cons_of_mem _ ha)) (by omega)

/-- **The walk visits the interfaces of a table** and ends behind it, if the body looks at the message
    alone and what follows is quiet. -/
theorem ifmsgLoop_table {σ ρ : Type} {body : σ → Bytes → Except ρ σ}
    (hbody : ∀ s (i : Interface) more, body s (i.info ++ more) = body s i.info)
    (hrest : Quiet rest) :
    ∀ {table : List Interface} {fuel : Nat} {s : σ}, (table.flatMap Interface.bytes).length < fuel →
      ifmsgLoop body fuel (table.flatMap Interface.bytes ++ rest) s
        = some (table.foldlM (fun s i => body s i.info) s) := by
  intro table
  induction table with
  | nil =>
    intro fuel s hfuel
    obtain ⟨fuel, rfl⟩ := Nat.exists_eq_add_one_of_ne_zero (Nat.ne_of_gt (Nat.zero_lt_of_lt hfuel))
    rw [ifmsgLoop]
    exact if_pos (hrest.imp id And.left)
  | cons i table ih =>
    intro fuel s hfuel
    obtain ⟨fuel, rfl⟩ := Nat.exists_eq_add_one_of_ne_zero (Nat.ne_of_gt (Nat.zero_lt_of_lt hfuel))
    have hsize := i.isInfo.1
    simp only [flatMap_cons, Interface.bytes, length_append] at hfuel
    have hnext : table.flatMap Interface.bytes ++ rest = [] ∨
        msgtype (table.flatMap Interface.bytes ++ rest) ≠ rtmNewaddr := by
      cases table with
      | nil => exact hrest.imp id And.right
      | cons next table =>
        rw [flatMap_cons, Interface.bytes, append_assoc, append_assoc, next.isInfo.msgtype_append]
        exact .inr (by decide)
    rw [flatMap_cons, Interface.bytes, append_assoc, append_assoc, ifmsgLoop, if_neg,
      i.isInfo.msglen_append, drop_left, skipAddrs_addrs hnext i.isAddrs (by omega), hbody,
      foldlM_cons]
    · dsimp only
      cases body s i.info with
      | error r => rfl
      | ok s => exact ih (by omega)
    · rintro (hnil | htype)
      · exact i.isInfo.append_ne_nil _ hnil
      · exact htype (i.isInfo.msgtype_append _)

/-! ## The bodies -/

section Interface

variable (i : Interface) (more : Bytes)

theorem sdl_append : sdlFamily (i.info ++ more) = sdlFamily i.info ∧
    sdlType (i.info ++ more) = sdlType i.info ∧ sdlName (i.info ++ more) = sdlName i.info := by
  have hnamed := i.named
  have hnlen : sdlNlen (i.info ++ more) = sdlNlen i.info := by
    rw [sdlNlen, sdlNlen, byteAt_append (by omega)]
  refine ⟨byteAt_append (by omega) more, byteAt_append (by omega) more, ?_⟩
  rw [sdlName, hnlen, drop_append_of_le_length (by omega),
    take_append_of_le_length (by rw [length_drop]; omega)]
  rfl

theorem listBody_append (hasIfaddr : Bytes → Bool) (names : List Bytes) :
    listBody hasIfaddr names (i.info ++ more) = listBody hasIfaddr names i.info := by
  obtain ⟨hfamily, htype, hname⟩ := sdl_append i more
  rw [listBody, listBody, listedName, listedName, hfamily, htype, hname]

theorem getBody_append (name : Bytes) :
    getBody name () (i.info ++ more) = getBody name () i.info := by
  obtain ⟨hfamily, -, hname⟩ := sdl_append i more
  rw [getBody, getBody, isNamed, isNamed, hfamily, hname, i.isInfo.msglen_append, take_left,
    i.isInfo.2.1, take_length]

end Interface

theorem foldlM_listBody (hasIfaddr : Bytes → Bool) : ∀ (table : List Interface) (names : List Bytes),
    table.foldlM (fun s i => listBody hasIfaddr s i.info) names
      = .ok (names ++ table.filterMap fun i => listedName hasIfaddr i.info) := by
  intro table
  induction table with
  | nil => intro names; simp [pure, Except.pure]
  | cons i table ih =>
    intro names
    rw [foldlM_cons, filterMap_cons]
    show table.foldlM _ (names ++ (listedName hasIfaddr i.info).toList) = _
    rw [ih]
    cases listedName hasIfaddr i.info <;> simp

theorem foldlM_getBody (name : Bytes) (table : List Interface) :
    table.foldlM (fun s i => getBody name s i.info) ()
      = match table.find? fun i => isNamed name i.info with
        | some i => .error i.info
        | none => .ok () := by
  induction table with
  | nil => rfl
  | cons i table ih =>
    rw [foldlM_cons, find?_cons, getBody]
    cases isNamed name i.info with
    | true =>
      rw [i.isInfo.2.1, take_length]
      rfl
    | false => exact ih

/-- **The walk over a table**, with something quiet behind it. -/
theorem sigarIfmsgIter_table {table : List Interface} {call : IfmsgCall} (hrest : Quiet rest) :
    sigarIfmsgIter (table.flatMap Interface.bytes ++ rest) call = answerFor table call := by
  have hfuel : (table.flatMap Interface.bytes).length
      < (table.flatMap Interface.bytes ++ rest).length + 1 := by
    rw [length_append]
    omega
  rw [sigarIfmsgIter, answerFor]
  cases call.request.name with
  | none =>
    simp only [ifmsgLoop_table (fun s i more => listBody_append i more _ s) hrest hfuel,
      foldlM_listBody, nil_append]
  | some name =>
    simp only [ifmsgLoop_table (fun _ i more => getBody_append i more name) hrest hfuel,
      foldlM_getBody]
    cases table.find? fun i => isNamed name i.info <;> rfl

/-- **A call in which nothing of an earlier table is left.** -/
theorem current_of_nothingLeft {buf : Bytes} {call : IfmsgCall} (h : NothingLeft buf call) :
    Current buf call := by
  intro table htable
  obtain ⟨hsame, hquiet⟩ := h
  rw [step]
  cases hfetches : call.request.fetches buf with
  | false =>
    -- the buffer is as an earlier call left it
    obtain ⟨rest, hbuf⟩ := hsame hfetches
    rw [loaded, hfetches] at hquiet ⊢
    rw [if_neg Bool.false_ne_true, ← hbuf, drop_left] at hquiet
    rw [if_neg Bool.false_ne_true, ← hbuf, htable]
    exact sigarIfmsgIter_table hquiet
  | true =>
    rw [loaded, hfetches, if_pos rfl] at hquiet ⊢
    cases hestimate : call.estimate with
    | error errno => simp [sigarIfmsgInit, hestimate]
    | ok len =>
      simp only [sigarIfmsgInit, hestimate, drop_left] at hquiet ⊢
      cases call.failed with
      | some status => rfl
      | none =>
        dsimp only
        rw [htable] at hquiet ⊢
        exact sigarIfmsgIter_table hquiet

/-- **In a run in which nothing of an earlier table is left, every call depends on the table of the host
    alone.** -/
theorem darwin_run_current (calls : List IfmsgCall) (hrun : Along step NothingLeft [] calls) :
    Along step Current [] calls :=
  hrun.mono fun _ _ => current_of_nothingLeft

/-- The message of an Ethernet interface, with a name of three bytes and no address. -/
def ethernet (name : Bytes) (h : name.length = 3) : Interface where
  info := [123, 0, 5, 14] ++ replicate 108 0 ++ [11, 18, 0, 0, 6, 3, 0, 0] ++ name
  addrs := []
  isInfo := by
    obtain ⟨a, b, c, rfl⟩ := length_eq_three.mp h
    exact ⟨by simp, rfl, rfl⟩
  named := by
    obtain ⟨a, b, c, rfl⟩ := length_eq_three.mp h
    exact Nat.le_refl 123
  isAddrs := nofun

def en0 : Interface := ethernet [101, 110, 48] rfl
def en1 : Interface := ethernet [101, 110, 49] rfl

/-- A call on a host that has the table, with room for exactly that. -/
def callOn (table : List Interface) (request : Request) : IfmsgCall where
  request := request
  estimate := .ok (table.flatMap Interface.bytes).length
  copied := table.flatMap Interface.bytes
  failed := none
  grown := []
  hasIfaddr := fun _ => false
  fits := fun _ h => Nat.le_of_eq (Except.ok.inj h)

/-- The host gets a second interface; the configuration of each is looked up. -/
def growingRun : List IfmsgCall :=
  [callOn [en0] (.config [101, 110, 48]), callOn [en0, en1] .list,
    callOn [en0, en1] (.config [101, 110, 49]), callOn [en0, en1] (.stat [101, 110, 50])]

theorem darwin_run_current_growing :
    Along step NothingLeft [] growingRun ∧ Along step Current [] growingRun ∧
      (exec step [] growingRun).2 = [.message en0.info, .names [[101, 110, 48], [101, 110, 49]],
        .message en1.info, .failed enxio] := by
  have hrun : Along step NothingLeft [] growingRun := by decide +kernel
  exact ⟨hrun, darwin_run_current _ hrun, by decide +kernel⟩

/-- **An interface that is gone is still there**: after a larger table `en1` is listed, and its
    configuration is found without asking the kernel at all. -/
theorem gone_listed :
    ((exec step [] [callOn [en0, en1] .list, callOn [en0] .list]).2
        = [.names [[101, 110, 48], [101, 110, 49]], .names [[101, 110, 48], [101, 110, 49]]] ∧
      ¬ Along step Current [] [callOn [en0, en1] .list, callOn [en0] .list]) ∧
    (exec step [] [callOn [en0, en1] .list, callOn [en0] (.config [101, 110, 49])]).2
        = [.names [[101, 110, 48], [101, 110, 49]], .message en1.info] ∧
      ¬ Along step Current [] [callOn [en0, en1] .list, callOn [en0] (.config [101, 110, 49])] := by
  refine ⟨⟨by decide +kernel, fun hcurrent => ?_⟩, by decide +kernel, fun hcurrent => ?_⟩
  · have hanswer := hcurrent.2.1 [en0] rfl
    have hstale : (step (step [] (callOn [en0, en1] .list)).1 (callOn [en0] .list)).2
        = .names [[101, 110, 48], [101, 110, 49]] := by decide +kernel
    rw [hstale] at hanswer
    exact absurd hanswer (by decide +kernel)
  · have hanswer := hcurrent.2.1 [en0] rfl
    have hstale : (step (step [] (callOn [en0, en1] .list)).1
        (callOn [en0] (.config [101, 110, 49]))).2 = .message en1.info := by decide +kernel
    rw [hstale] at hanswer
    exact absurd hanswer (by decide +kernel)

end Sigar.Net.Darwin
