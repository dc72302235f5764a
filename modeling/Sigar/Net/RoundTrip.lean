/-
  Reading back the socket tables that the kernel writes to /proc/net.

  A line of /proc/net/tcp, udp or raw (and of their IPv6 twins) is

      sl: laddr:lport raddr:rport st tx:rx tr:when retrnsmt uid timeout inode …

  with hexadecimal columns of a FIXED number of digits, decimal ones padded with blanks, and tokens
  that nobody reads.  `SocketLine` is such a line together with the record it shows; the digits are
  of either case and every gap is as wide as it likes.

  1. **Columns** — one lemma for each way the parser moves on: over blanks (`skipWhile_pad`), over
     a token (`skipPast_token`), over an address and a port (`addrPort_columns`), over digits of a
     fixed number (`hex2int_writes`).
  2. **A line** — `procNetParse_body`: the parser delivers the record of the line, if the flags
     ask for it, WHATEVER the array holds after the line.
  3. **A table** — `procNetRead_table`: line by line, in the order of the file.
-/
import Sigar.Net.Linux
import Sigar.Lib.Hex
import Sigar.Lib.Numerals
import Mathlib.Data.List.GetD

namespace Sigar.Net

open CString Hex Numerals List

/-! ## Records and lines -/

/-- What the kernel shows of a socket. -/
structure SocketRecord where
  localAddress : SigarNetAddress
  localPort : UInt16
  remoteAddress : SigarNetAddress
  remotePort : UInt16
  state : UInt8
  sendQueue : UInt32
  receiveQueue : UInt32
  uid : UInt32
  inode : UInt64

/-- An IPv4 address is one word of eight digits, an IPv6 address is four. -/
inductive AddressText : SigarNetAddress → Text → Prop where
  | inet {a : UInt32} {w : Text} (hw : Writes 8 a.toNat w) : AddressText (.inet a) w
  | inet6 {a b c d : UInt32} {w x y z : Text} (hw : Writes 8 a.toNat w)
      (hx : Writes 8 b.toNat x) (hy : Writes 8 c.toNat y) (hz : Writes 8 d.toNat z) :
      AddressText (.inet6 a b c d) (w ++ (x ++ (y ++ z)))

/-- A column that is skipped. -/
abbrev Column := {token : Text // token ≠ [] ∧ IsToken token}

/-- The blanks between two columns: one, and `extra`. -/
def pad (extra : Nat) : Text := replicate (extra + 1) ' '

/-- A line and the record that it shows. -/
structure SocketLine where
  record : SocketRecord
  lead : Nat           -- blanks before the row's number
  extra : Fin 9 → Nat  -- blanks that widen the gaps
  sl : Column
  laddr : Text
  lport : Text
  raddr : Text
  rport : Text
  st : Text
  tx : Text
  rx : Text
  timer : Column
  retrnsmt : Column
  timeout : Column
  rest : Text  -- the columns after the inode
  laddr_text : AddressText record.localAddress laddr
  lport_text : Writes 4 record.localPort.toNat lport
  raddr_text : AddressText record.remoteAddress raddr
  rport_text : Writes 4 record.remotePort.toNat rport
  st_text : Writes 2 record.state.toNat st
  tx_text : Writes 8 record.sendQueue.toNat tx
  rx_text : Writes 8 record.receiveQueue.toNat rx
  rest_column : NoDigit rest
  rest_line : '\n' ∉ rest

namespace SocketLine

/-- The line in pieces: columns, separators and gaps. -/
def pieces (l : SocketLine) : List Text :=
  [replicate l.lead ' ', l.sl, pad (l.extra 0),
    l.laddr, [':'], l.lport, pad (l.extra 1),
    l.raddr, [':'], l.rport, pad (l.extra 2),
    l.st, pad (l.extra 3),
    l.tx, [':'], l.rx, pad (l.extra 4),
    l.timer, pad (l.extra 5), l.retrnsmt, pad (l.extra 6),
    renderNat l.record.uid.toNat, pad (l.extra 7),
    l.timeout, pad (l.extra 8),
    renderNat l.record.inode.toNat, l.rest]

/-- The line, without the newline that ends it. -/
def body (l : SocketLine) : Text := l.pieces.flatten

end SocketLine

/-- A connection as `proc_net_read` delivers it; its `pid` is never written. -/
def SocketRecord.connection (r : SocketRecord) (type : NetconnType) : SigarNetConnection where
  localPort := r.localPort.toUInt64
  localAddress := r.localAddress
  remotePort := r.remotePort.toUInt64
  remoteAddress := r.remoteAddress
  uid := r.uid
  inode := r.inode
  type := type
  state := Int32.ofNat r.state.toNat
  sendQueue := r.sendQueue.toUInt64
  receiveQueue := r.receiveQueue.toUInt64
  pid := none

/-- The records that the flags of a walker ask for: clients have a remote port, servers none. -/
def SocketRecord.Selected (r : SocketRecord) (flags : Int32) : Prop :=
  r.remotePort ≠ 0 ∧ flags &&& sigarNetconnClient ≠ 0 ∨
    r.remotePort = 0 ∧ flags &&& sigarNetconnServer ≠ 0

instance (r : SocketRecord) (flags : Int32) : Decidable (r.Selected flags) :=
  inferInstanceAs (Decidable (_ ∨ _))

/-- The test that the source makes of the port it has read. -/
theorem SocketRecord.selected_iff (r : SocketRecord) (flags : Int32) :
    (r.remotePort.toUInt64 ≠ 0 ∧ flags &&& sigarNetconnClient ≠ 0 ∨
      r.remotePort.toUInt64 = 0 ∧ flags &&& sigarNetconnServer ≠ 0) ↔ r.Selected flags := by
  have hport : r.remotePort.toUInt64 = 0 ↔ r.remotePort = 0 := by
    rw [← UInt64.toNat_inj, ← UInt16.toNat_inj, UInt16.toNat_toUInt64]
    rfl
  rw [SocketRecord.Selected, ne_eq, hport]

/-! ## Columns -/

/-- The text goes on with a column. -/
def NoBlank (text : Text) : Prop := deref text ≠ ' '

theorem noBlank_column {token : Text} (hne : token ≠ []) (htoken : IsToken token)
    (text : Text) : NoBlank (token ++ text) := by
  cases token with
  | nil => exact absurd rfl hne
  | cons c token =>
    intro (hblank : c = ' ')
    have hspace := (htoken c mem_cons_self).2
    rw [hblank] at hspace
    exact absurd hspace (by decide)

theorem skipWhile_blanks (count : Nat) {text : Text} (htext : NoBlank text) :
    skipWhile (replicate count ' ' ++ text) ' ' = text :=
  dropWhile_stop (fun c hc => by rw [eq_of_mem_replicate hc]; rfl)
    (beq_eq_false_iff_ne.mpr htext)

theorem skipWhile_pad (extra : Nat) {text : Text} (htext : NoBlank text) :
    skipWhile (pad extra ++ text) ' ' = text := skipWhile_blanks (extra + 1) htext

/-- `SKIP_PAST` goes over one token and the gap after it. -/
theorem skipPast_token {token : Text} (htoken : IsToken token) (extra : Nat)
    {text : Text} (htext : NoBlank text) :
    skipPast (token ++ (pad extra ++ text)) ' ' = text := by
  have hover : (token ++ (pad extra ++ text)).dropWhile (fun x => x ≠ nul && x ≠ ' ')
      = pad extra ++ text := by
    apply dropWhile_stop
    · intro c hc
      have hblank : c ≠ ' ' := by
        rintro rfl
        exact absurd (htoken _ hc).2 (by decide)
      simp [(htoken c hc).1, hblank]
    · rfl
  rw [skipPast, hover, skipWhile_pad extra htext]

/-! ## Hexadecimal columns -/

theorem ofInt_ofNat32 (n : Nat) : UInt32.ofInt n = UInt32.ofNat n := by
  apply UInt32.toNat_inj.mp
  rw [UInt32.ofInt, UInt32.toNat_ofNat', UInt32.toNat_ofNat']
  omega

/-- Either case of a digit adds its value. -/
theorem hexBits_eq {c : Char} {d : Nat} (h : hexDigit c = some d) : hexBits c = UInt32.ofNat d := by
  rcases hexDigit_cases h with
    ⟨hdigit, hcode, hd⟩ | ⟨hdigit, hcode, hlow, hd⟩ | ⟨hdigit, hcode, hlow, hd⟩
  · have hsub : ((c.toNat : Int) - 48) = d := by omega
    simp only [hexBits, if_pos (show c.toNat < 128 by omega), hdigit, if_true, hsub]
    exact ofInt_ofNat32 d
  · have hsub : ((c.toNat : Int) - 87) = d := by omega
    have hlower : c.isUpper = false := by
      apply decide_eq_false
      rintro ⟨-, hhigh⟩
      have hupto : c.toNat ≤ 90 := UInt32.le_iff_toNat_le.mp hhigh
      omega
    simp only [hexBits, if_pos (show c.toNat < 128 by omega), hdigit, hlower, Bool.false_eq_true,
      if_false, hsub]
    exact ofInt_ofNat32 d
  · have hsub : ((c.toNat : Int) - 55) = d := by omega
    have hupper : c.isUpper = true := by
      apply decide_eq_true
      refine ⟨UInt32.le_iff_toNat_le.mpr ?_, UInt32.le_iff_toNat_le.mpr ?_⟩
      · show 65 ≤ c.toNat
        omega
      · show c.toNat ≤ 90
        omega
    simp only [hexBits, if_pos (show c.toNat < 128 by omega), hdigit, hupper, Bool.false_eq_true,
      if_false, if_true, hsub]
    exact ofInt_ofNat32 d

/-- One digit more: the shift leaves room for it. -/
theorem shift_or_digit (v : Nat) {d : Nat} (hd : d < 16) :
    UInt32.ofNat v <<< 4 ||| UInt32.ofNat d = UInt32.ofNat (16 * v + d) := by
  have hshift : v % 4294967296 * 16 % 4294967296 = (v % 268435456) <<< 4 := by
    rw [Nat.shiftLeft_eq]
    omega
  apply UInt32.toNat_inj.mp
  rw [UInt32.toNat_or, UInt32.toNat_shiftLeft, UInt32.toNat_ofNat', UInt32.toNat_ofNat',
    UInt32.toNat_ofNat', Nat.mod_eq_of_lt (show d < 2 ^ 32 by omega),
    show (4 : UInt32).toNat % 32 = 4 from rfl, Nat.shiftLeft_eq]
  show v % 4294967296 * 16 % 4294967296 ||| d = (16 * v + d) % 4294967296
  rw [hshift, ← Nat.shiftLeft_add_eq_or_of_lt (show d < 2 ^ 4 from hd), Nat.shiftLeft_eq]
  omega

theorem hex2int_succ (x : Text) (len : Nat) :
    hex2int x (len + 1) = hex2int x len <<< 4 ||| hexBits (x.getD len nul) := by
  rw [hex2int, range_succ, foldl_append]
  rfl

/-- **`hex2int`** is the number that the digits denote. -/
theorem hex2int_writes {width n : Nat} {digits : Text} (h : Writes width n digits)
    (rest : Text) : hex2int (digits ++ rest) width = UInt32.ofNat n := by
  obtain ⟨rfl, hdigits, rfl⟩ := h
  induction digits using reverseRecOn generalizing rest with
  | nil => rfl
  | append_singleton digits c ih =>
    obtain ⟨d, hd⟩ := Option.isSome_iff_exists.mp
      (hdigits c (mem_append_right digits mem_cons_self))
    have hlt : d < 16 := by
      rcases hexDigit_cases hd with hc | hc | hc <;> omega
    have hinit : ∀ c' ∈ digits, (hexDigit c').isSome = true :=
      fun c' hc' => hdigits c' (mem_append_left [c] hc')
    have hlast : (digits ++ (c :: rest)).getD digits.length nul = c := by simp
    rw [length_append, length_singleton, hex2int_succ, append_assoc, singleton_append, hlast,
      ih (c :: rest) hinit, hexBits_eq hd, shift_or_digit _ hlt, hexDigitsValue_concat, hd]
    rfl

/-! ## Addresses and ports -/

section Address

variable {address : SigarNetAddress} {text : Text} (h : AddressText address text)
include h

theorem AddressText.isDigit : ∀ c ∈ text, (hexDigit c).isSome = true := by
  intro c hc
  cases h with
  | inet hw => exact hw.isDigit c hc
  | inet6 hw hx hy hz => grind [hw.isDigit, hx.isDigit, hy.isDigit, hz.isDigit]

theorem AddressText.isToken : IsToken text :=
  fun c hc => ⟨(hexDigit_plain (h.isDigit c hc)).2.1, (hexDigit_plain (h.isDigit c hc)).1⟩

theorem AddressText.ne_nil : text ≠ [] := by
  cases h with
  | inet hw => exact hw.ne_nil (by decide)
  | inet6 hw => exact append_ne_nil_of_left_ne_nil (hw.ne_nil (by decide)) _

/-- **The family follows from the length**, and each word is read at its place. -/
theorem convertHexAddress_text (rest : Text) :
    convertHexAddress (text ++ rest) text.length = address := by
  cases h with
  | inet hw =>
    rw [hw.length_eq, convertHexAddress, if_neg (by decide), hexEntLen, if_pos rfl,
      hex2int_writes hw, UInt32.ofNat_toNat]
  | @inet6 a b c d w x y z hw hx hy hz =>
    have hlen : (w ++ (x ++ (y ++ z))).length = 32 := by
      simp only [length_append, hw.length_eq, hx.length_eq, hy.length_eq, hz.length_eq]
    have hptr : w ++ (x ++ (y ++ z)) ++ rest = w ++ (x ++ (y ++ (z ++ rest))) := by
      simp only [append_assoc]
    -- the four words are eight digits apart
    have hsecond : (w ++ (x ++ (y ++ (z ++ rest)))).drop 8 = x ++ (y ++ (z ++ rest)) :=
      drop_left' hw.length_eq
    have hthird : (w ++ (x ++ (y ++ (z ++ rest)))).drop 16 = y ++ (z ++ rest) := by
      rw [show 16 = 8 + 8 from rfl, ← drop_drop, hsecond, drop_left' hx.length_eq]
    have hfourth : (w ++ (x ++ (y ++ (z ++ rest)))).drop 24 = z ++ rest := by
      rw [show 24 = 16 + 8 from rfl, ← drop_drop, hthird, drop_left' hy.length_eq]
    rw [hlen, hptr, convertHexAddress, if_pos (by decide)]
    simp only [hexEntLen, Nat.zero_mul, Nat.one_mul, Nat.reduceMul, drop_zero, hsecond, hthird,
      hfourth, hex2int_writes hw, hex2int_writes hx, hex2int_writes hy, hex2int_writes hz,
      UInt32.ofNat_toNat]

end Address

/-- A port has sixteen bits: the mask does nothing. -/
theorem port_mask (port : UInt16) : UInt64.ofNat port.toNat &&& 0xffff = port.toUInt64 := by
  have hlt := port.toNat_lt
  apply UInt64.toNat_inj.mp
  rw [UInt64.toNat_and, UInt64.toNat_ofNat', UInt16.toNat_toUInt64,
    show (0xffff : UInt64).toNat = 2 ^ 16 - 1 from rfl, Nat.and_two_pow_sub_one_eq_mod]
  omega

/-- Up to the colon there is the address, after it four digits and a gap. -/
theorem addrPort_columns {address : SigarNetAddress} {addr digits : Text} {port : UInt16}
    (haddr : AddressText address addr) (hport : Writes 4 port.toNat digits) (extra : Nat)
    {text : Text} (htext : NoBlank text) :
    addrPort (addr ++ ([':'] ++ (digits ++ (pad extra ++ text))))
      = ((addr ++ ([':'] ++ (digits ++ (pad extra ++ text))), addr.length), port.toUInt64,
          text) := by
  have hlen : (addr ++ ([':'] ++ (digits ++ (pad extra ++ text)))).takeWhile
      (fun c => c ≠ nul && c ≠ ':') = addr := by
    apply takeWhile_stop
    · intro c hc
      have hplain := hexDigit_plain (haddr.isDigit c hc)
      simp [hplain.2.1, hplain.2.2.2.2.2.2]
    · rfl
  have hcolon : skipWhile ([':'] ++ (digits ++ (pad extra ++ text))) ':'
      = digits ++ (pad extra ++ text) := by
    apply dropWhile_stop
    · exact forall_mem_singleton.mpr rfl
    · cases digits with
      | nil => exact absurd rfl (hport.ne_nil (by decide))
      | cons c digits =>
        have hplain := hexDigit_plain (hport.isDigit c mem_cons_self)
        exact beq_eq_false_iff_ne.mpr hplain.2.2.2.2.2.2
  have hnumber : strtoulHex (digits ++ (pad extra ++ text))
      = ⟨UInt64.ofNat port.toNat, pad extra ++ text, false⟩ :=
    hport.strtoulHex_append (by decide) (by decide) rfl
  simp only [addrPort, hlen, drop_left, hcolon, hnumber, port_mask, skipWhile_pad extra htext]

/-! ## A line -/

theorem noBlank_writes {width n : Nat} {digits : Text} (h : Writes width n digits)
    (hwidth : 0 < width) (text : Text) : NoBlank (digits ++ text) :=
  noBlank_column (h.ne_nil hwidth) h.isToken text

theorem noBlank_renderNat (n : Nat) (text : Text) : NoBlank (renderNat n ++ text) :=
  noBlank_column (renderNat_ne_nil n) (isToken_renderNat n) text

theorem noDigit_pad (extra : Nat) (text : Text) : NoDigit (pad extra ++ text) := rfl

theorem toUInt32_uid (uid : UInt32) : (UInt64.ofNat uid.toNat).toUInt32 = uid := by simp

/-- `tx` and the colon after it. -/
theorem drop_colon {digits text : Text} {width : Nat} (hlen : digits.length = width) :
    (digits ++ ([':'] ++ text)).drop (width + 1) = text := by
  rw [← drop_drop, drop_left' hlen]
  rfl

/-- **A line is read back** if the flags ask for its record, whatever the array holds after it. -/
theorem procNetParse_body (l : SocketLine) (flags : Int32) (type : NetconnType)
    {after : Text} (hafter : NoDigit (l.rest ++ after)) :
    procNetParse flags type (l.body ++ after)
      = if l.record.Selected flags then some (l.record.connection type) else none := by
  have hsl := l.sl.2
  have htimer := l.timer.2
  have hretrnsmt := l.retrnsmt.2
  have htimeout := l.timeout.2
  have hcond := l.record.selected_iff flags
  have huid : l.record.uid.toNat < 18446744073709551616 := by
    have := l.record.uid.toNat_lt
    omega
  simp only [SocketLine.body, SocketLine.pieces, flatten_cons, flatten_nil, append_assoc,
    append_nil, procNetParse]
  rw [skipWhile_blanks _ (noBlank_column hsl.1 hsl.2 _),
    skipPast_token hsl.2 _ (noBlank_column l.laddr_text.ne_nil l.laddr_text.isToken _),
    addrPort_columns l.laddr_text l.lport_text _
      (noBlank_column l.raddr_text.ne_nil l.raddr_text.isToken _)]
  simp only []
  rw [addrPort_columns l.raddr_text l.rport_text _ (noBlank_writes l.st_text (by decide) _)]
  by_cases hselected : l.record.Selected flags
  · rw [if_pos hselected, if_neg (not_not_intro (hcond.mpr hselected)), hex2int_writes l.st_text,
      drop_left' l.st_text.length_eq, skipWhile_pad _ (noBlank_writes l.tx_text (by decide) _),
      hexEntLen, hex2int_writes l.tx_text, drop_colon l.tx_text.length_eq, hex2int_writes l.rx_text,
      drop_left' l.rx_text.length_eq, skipWhile_pad _ (noBlank_column htimer.1 htimer.2 _),
      skipPast_token htimer.2 _ (noBlank_column hretrnsmt.1 hretrnsmt.2 _),
      skipPast_token hretrnsmt.2 _ (noBlank_renderNat _ _),
      strtoull_renderNat huid (noDigit_pad _ _)]
    simp only []
    rw [skipWhile_pad _ (noBlank_column htimeout.1 htimeout.2 _),
      skipPast_token htimeout.2 _ (noBlank_renderNat _ _),
      strtoull_renderNat l.record.inode.toNat_lt hafter, convertHexAddress_text l.laddr_text,
      convertHexAddress_text l.raddr_text, UInt32.ofNat_toNat, UInt32.ofNat_toNat, toUInt32_uid,
      UInt64.ofNat_toNat]
    rfl
  · grind

/-! ## A table -/

/-- A line has no newline inside. -/
theorem newline_notMem_body (l : SocketLine) : '\n' ∉ l.body := by
  have hpieces : ∀ piece ∈ l.pieces, '\n' ∉ piece := by
    simp only [SocketLine.pieces, pad, forall_mem_cons, not_mem_nil, false_implies, implies_true,
      and_true, newline_notMem_blanks, not_false_eq_true, true_and]
    exact ⟨newline_notMem_token l.sl.2.2, newline_notMem_token l.laddr_text.isToken, by decide,
      newline_notMem_token l.lport_text.isToken, newline_notMem_token l.raddr_text.isToken,
      by decide, newline_notMem_token l.rport_text.isToken,
      newline_notMem_token l.st_text.isToken,
      newline_notMem_token l.tx_text.isToken, by decide,
      newline_notMem_token l.rx_text.isToken, newline_notMem_token l.timer.2.2,
      newline_notMem_token l.retrnsmt.2.2, newline_notMem_token (isToken_renderNat _),
      newline_notMem_token l.timeout.2.2, newline_notMem_token (isToken_renderNat _), l.rest_line⟩
  intro hmem
  obtain ⟨piece, hpiece, hin⟩ := mem_flatten.mp hmem
  exact hpieces piece hpiece hin

/-- A file of /proc/net: a line of titles, and a line for each socket. -/
structure SocketTable where
  header : Text
  lines : List SocketLine
  header_line : '\n' ∉ header
  header_fits : header.length + 1 < bufsiz
  lines_fit : ∀ l ∈ lines, l.body.length + 1 < bufsiz

namespace SocketTable

def text (table : SocketTable) : Text :=
  table.header ++ '\n' :: table.lines.flatMap fun l => l.body ++ ['\n']

/-- The sockets of the table. -/
def records (table : SocketTable) : List SocketRecord := table.lines.map (·.record)

end SocketTable

theorem fgetsLines_lines {lines : List SocketLine}
    (hfit : ∀ l ∈ lines, l.body.length + 1 < bufsiz) :
    fgetsLines bufsiz (lines.flatMap fun l => l.body ++ ['\n']) []
      = lines.map fun l => l.body ++ ['\n'] := by
  refine fgetsLines_file fun l hl => ⟨⟨l.body, rfl, newline_notMem_body l⟩, ?_⟩
  rw [length_append]
  exact hfit l hl

/-- What the array still holds of earlier lines is never reached. -/
theorem lineRows_lines (flags : Int32) (type : NetconnType) :
    ∀ (lines : List SocketLine) (buffer : Text),
      lineRows flags type buffer (lines.map fun l => l.body ++ ['\n'])
        = ((lines.map (·.record)).filter (·.Selected flags)).map (·.connection type) := by
  intro lines
  induction lines with
  | nil => intro buffer; rfl
  | cons l lines ih =>
    intro buffer
    have hafter :
        NoDigit (l.rest ++ '\n' :: nul :: buffer.drop ((l.body ++ ['\n']).length + 1)) := by
      cases hrest : l.rest with
      | nil => rfl
      | cons c rest =>
        have hc := l.rest_column
        rw [hrest] at hc
        exact hc
    have hparse := procNetParse_body l flags type hafter
    have hbuffer : overwrite buffer (l.body ++ ['\n'])
        = l.body ++ '\n' :: nul :: buffer.drop ((l.body ++ ['\n']).length + 1) := by
      rw [overwrite, append_assoc]
      rfl
    rw [map_cons, lineRows, map_cons, filter_cons]
    by_cases hselected : l.record.Selected flags
    · grind
    · grind

theorem fgetsLines_table (table : SocketTable) :
    fgetsLines bufsiz table.text []
      = (table.header ++ ['\n']) :: table.lines.map fun l => l.body ++ ['\n'] := by
  have hlen : ([] : Text).length + table.header.length + 1 < bufsiz := by
    rw [length_nil, Nat.zero_add]
    exact table.header_fits
  rw [SocketTable.text, fgetsLines_line table.header_line hlen, fgetsLines_lines table.lines_fit]
  rfl

/-- **The rows of a table** are the records that the flags ask for, whatever the array held. -/
theorem rows_table (flags : Int32) (type : NetconnType) (table : SocketTable)
    (frame : Text) :
    NetFile.rows ⟨.ok table.text, frame⟩ flags type
      = (table.records.filter (·.Selected flags)).map (·.connection type) := by
  rw [NetFile.rows]
  dsimp only
  rw [fgetsLines_table, tail_cons, lineRows_lines]
  rfl

theorem status_table (table : SocketTable) (frame : Text) :
    NetFile.status ⟨.ok table.text, frame⟩ = sigarOk := by simp [NetFile.status, fgetsLines_table]

/-- **A socket table is read back**: the callback gets, in the order of the file, the records that
    the flags ask for, until it asks for no more. -/
theorem procNetRead_table {σ : Type} (addConnection : AddConnection σ) (flags : Int32)
    (type : NetconnType) (table : SocketTable) (frame : Text) (data : σ) :
    procNetRead addConnection flags ⟨.ok table.text, frame⟩ type data
      = ((Visit.visit isOk addConnection
            ((table.records.filter (·.Selected flags)).map (·.connection type)) data).1,
          sigarOk) := by
  rw [procNetRead_eq, rows_table, status_table]

/-- A server on port 8080 of the loopback interface. -/
def loopbackRecord : SocketRecord where
  localAddress := .inet 0x0100007F
  localPort := 8080
  remoteAddress := .inet 0
  remotePort := 0
  state := 10
  sendQueue := 0
  receiveQueue := 1
  uid := 1000
  inode := 12345

/-- Its line, with digits of both cases. -/
def loopbackLine : SocketLine where
  record := loopbackRecord
  lead := 3
  extra := fun i => if i = 6 ∨ i = 7 then 7 else 0
  sl := ⟨"0:".toList, by decide, by decide⟩
  laddr := "0100007f".toList
  lport := "1F90".toList
  raddr := "00000000".toList
  rport := "0000".toList
  st := "0a".toList
  tx := "00000000".toList
  rx := "00000001".toList
  timer := ⟨"00:00000000".toList, by decide, by decide⟩
  retrnsmt := ⟨"00000000".toList, by decide, by decide⟩
  timeout := ⟨"0".toList, by decide, by decide⟩
  rest := " 1".toList
  laddr_text := .inet (by decide)
  lport_text := by decide
  raddr_text := .inet (by decide)
  rport_text := by decide
  st_text := by decide
  tx_text := by decide
  rx_text := by decide
  rest_column := rfl
  rest_line := by decide

/-- The table that shows it. -/
def loopbackTable : SocketTable where
  header := "  sl  local_address rem_address   st".toList
  lines := [loopbackLine]
  header_line := by decide
  header_fits := by decide
  lines_fit := by decide +kernel

theorem procNetRead_table_example :
    procNetRead (fun seen conn => (seen ++ [conn], sigarOk)) sigarNetconnServer
        ⟨.ok loopbackTable.text, []⟩ .tcp []
      = ([loopbackRecord.connection .tcp], sigarOk) := by
  rw [procNetRead_table]
  decide

end Sigar.Net
