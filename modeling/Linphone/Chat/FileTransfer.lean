import Linphone.Lib.StreamCipher
import Mathlib.Data.List.Basic
import Mathlib.Algebra.GroupWithZero.Nat

/-!
# Transfer of a file

A file that goes with a chat message is uploaded to a server by one side and downloaded by the
other (`coreapi/chat.c`). With encrypted file sharing the message announces a key. The sender
encrypts in the callback that fills the buffers of the upload, the receiver decrypts in the callback
that takes what was received (`coreapi/lime.c`). A file given by its path or in memory goes to the
server by another body handler, and a file received to a path comes by another one: they do not
encrypt or decrypt.

**The cipher** is given by a library that works in blocks of 16 bytes (`StreamCipher.Library`).

`transferred_iff`: when the file arrives, encrypted if a key is announced, whatever the library.
-/

namespace Linphone

open StreamCipher

variable {Key State : Type}

/-! ## Ciphering -/

/-- `lime_encryptFile` and `lime_decryptFile`. The first call makes a context, for which the key has
to be there, and a call without bytes ends it. -/
def limeCryptFile (lib : Library Key State 16) (dir : Direction) (cryptoContext : Option State)
    (key : Option Key) (bytes : List UInt8) : Option (List UInt8 × Option State) := do
  let gcmContext ← cryptoContext.or (key.map (lib.starts dir))
  if bytes.length ≠ 0 then
    let (result, gcmContext) := lib.update gcmContext bytes
    return (result, some gcmContext)
  else return ([], none)

/-- `lime_encryptFile` -/
def limeEncryptFile (lib : Library Key State 16) (cryptoContext : Option State) (key : Option Key)
    (plain : List UInt8) : Option (List UInt8 × Option State) :=
  limeCryptFile lib .encrypt cryptoContext key plain

/-- `lime_decryptFile` -/
def limeDecryptFile (lib : Library Key State 16) (cryptoContext : Option State) (key : Option Key)
    (cipher : List UInt8) : Option (List UInt8 × Option State) :=
  limeCryptFile lib .decrypt cryptoContext key cipher

/-! ## Upload -/

/-- One turn of the upload: the buffer to fill, and how many bytes the application gives. -/
structure SendCall where
  buffer : List UInt8
  answered : Nat

/-- How many bytes the application is asked for. A chunk to encrypt that is not the last one is a
multiple of the block. -/
def askedSize (key : Option Key) (fileSize offset size : Nat) : Nat :=
  if key.isSome ∧ offset + size < fileSize then size - size % 16 else size

/-- `linphone_chat_message_file_transfer_on_send_body`: the bytes sent and the cipher's context. -/
def onSendBody (lib : Library Key State 16) (file : List UInt8) (key : Option Key) (offset : Nat)
    (cryptoContext : Option State) (call : SendCall) : Option (List UInt8 × Option State) :=
  if offset < file.length then
    let size := min call.answered (askedSize key file.length offset call.buffer.length)
    let chunk := (file.drop offset).take size
    match key with
    | some key => do
        let (buffer, cryptoContext) ← limeEncryptFile lib cryptoContext (some key) chunk
        if offset + chunk.length ≥ file.length then
          let (_, cryptoContext) ← limeEncryptFile lib cryptoContext none []
          return (buffer, cryptoContext)
        else return (buffer, cryptoContext)
    | none => some (chunk, cryptoContext)
  else some (call.buffer, cryptoContext)

/-- The upload by the callback, turn by turn. -/
def sendBody (lib : Library Key State 16) (file : List UInt8) (key : Option Key) :
    Nat → Option State → List SendCall → Option (List UInt8)
  | _, _, [] => some []
  | offset, cryptoContext, call :: calls => do
      let (buffer, cryptoContext) ← onSendBody lib file key offset cryptoContext call
      let rest ← sendBody lib file key (offset + buffer.length) cryptoContext calls
      return buffer ++ rest

/-- The turns until the whole file is given. The application gives as much as it is asked for or
less, and what is left of the file. -/
def Served (key : Option Key) (fileSize : Nat) : Nat → List SendCall → Prop
  | offset, [] => offset = fileSize
  | offset, call :: calls =>
      offset < fileSize ∧ call.answered ≤ askedSize key fileSize offset call.buffer.length ∧
        offset + call.answered ≤ fileSize ∧ Served key fileSize (offset + call.answered) calls

/-! ## Download -/

/-- `on_recv_body`: the bytes given to the application and the cipher's context. -/
def onRecvBody (lib : Library Key State 16) (key : Option Key) (cryptoContext : Option State)
    (buffer : List UInt8) : Option (List UInt8 × Option State) :=
  if buffer.length = 0 then some ([], cryptoContext)
  else
    match key with
    | some key => limeDecryptFile lib cryptoContext (some key) buffer
    | none => some (buffer, cryptoContext)

/-- The download to the callback, piece by piece. -/
def recvBody (lib : Library Key State 16) (key : Option Key) :
    Option State → List (List UInt8) → Option (List UInt8 × Option State)
  | cryptoContext, [] => some ([], cryptoContext)
  | cryptoContext, buffer :: buffers => do
      let (bytes, cryptoContext) ← onRecvBody lib key cryptoContext buffer
      let (rest, cryptoContext) ← recvBody lib key cryptoContext buffers
      return (bytes ++ rest, cryptoContext)

/-- What `linphone_chat_process_response_from_get_file` does with the cipher's context. -/
def processResponseFromGetFile (lib : Library Key State 16) (key : Option Key)
    (cryptoContext : Option State) : Option Unit :=
  if key.isSome then (limeDecryptFile lib cryptoContext none []).map fun _ => () else some ()

/-- The bytes in pieces of given sizes. -/
def cut : List Nat → List UInt8 → List (List UInt8)
  | [], _ => []
  | n :: sizes, bytes => bytes.take n :: cut sizes (bytes.drop n)

/-! ## The transfer -/

inductive FileSupply
  | callback (calls : List SendCall)
  | filePath
  | memoryBuffer

inductive FileDelivery
  | callback | filePath

/-- A transfer that goes to the end on both sides. -/
structure FileTransfer (Key : Type) where
  file : List UInt8
  key : Option Key
  supply : FileSupply
  delivery : FileDelivery
  recvSizes : List Nat
  served : ∀ calls, supply = .callback calls → Served key file.length 0 calls
  received : recvSizes.sum = file.length

namespace FileTransfer

variable (lib : Library Key State 16) (t : FileTransfer Key)

/-- What is sent to the server. -/
def uploaded : Option (List UInt8) :=
  match t.supply with
  | .callback calls => sendBody lib t.file t.key 0 none calls
  | .filePath | .memoryBuffer => some t.file

/-- What the receiving application has. -/
def downloaded : Option (List UInt8) := do
  let body ← t.uploaded lib
  match t.delivery with
  | .callback =>
      let (bytes, cryptoContext) ← recvBody lib t.key none (cut t.recvSizes body)
      processResponseFromGetFile lib t.key cryptoContext
      return bytes
  | .filePath =>
      processResponseFromGetFile lib t.key none
      return body

/-- The file arrives, and what is sent is encrypted if a key is announced. -/
def Faithful : Prop :=
  t.downloaded lib = some t.file ∧
    ∀ key ∈ t.key, t.uploaded lib = some (mask (lib.keystream key) 0 t.file)

end FileTransfer

/-- The answers from the first one that is not empty on. -/
def started (calls : List SendCall) : List Nat :=
  (calls.dropWhile fun call => call.answered = 0).map SendCall.answered

/-- The sizes received, without the empty ones. -/
def filledSizes (sizes : List Nat) : List Nat := sizes.filter fun n => n ≠ 0

/-! ## Without a key -/

variable {lib : Library Key State 16} {file : List UInt8} {key : Option Key} {k : Key}
  {calls : List SendCall} {call : SendCall} {ctx : Option State} {s : State} {offset : Nat}
  {sizes : List Nat} {bytes : List UInt8} {t : FileTransfer Key}

theorem min_answered (hserved : Served key file.length offset (call :: calls)) :
    min call.answered (askedSize key file.length offset call.buffer.length) = call.answered :=
  Nat.min_eq_left hserved.2.1

theorem length_chunk (hserved : Served key file.length offset (call :: calls)) :
    ((file.drop offset).take call.answered).length = call.answered := by
  have hleft := hserved.2.2.1
  rw [List.length_take, List.length_drop]
  omega

theorem drop_served (n : Nat) :
    (file.drop offset).take n ++ file.drop (offset + n) = file.drop offset := by
  rw [← List.drop_drop, List.take_append_drop]

theorem sendBody_plain (hserved : Served (none : Option Key) file.length offset calls) :
    sendBody lib file none offset ctx calls = some (file.drop offset) := by
  induction calls generalizing offset with
  | nil =>
    rw [sendBody, List.drop_of_length_le (Nat.le_of_eq (Eq.symm hserved))]
  | cons call calls ih =>
    rw [sendBody, onSendBody, if_pos hserved.1]
    dsimp only
    rw [min_answered hserved]
    simp only [Option.bind_eq_bind, Option.bind_some]
    rw [length_chunk hserved, ih hserved.2.2.2]
    exact congrArg some (drop_served call.answered)

theorem flatten_cut (h : sizes.sum = bytes.length) : (cut sizes bytes).flatten = bytes := by
  induction sizes generalizing bytes with
  | nil =>
    rw [List.sum_nil] at h
    rw [cut, List.length_eq_zero_iff.mp h.symm]
    rfl
  | cons n sizes ih =>
    rw [List.sum_cons] at h
    rw [cut, List.flatten_cons, ih (by rw [List.length_drop]; omega), List.take_append_drop]

theorem recvBody_plain (buffers : List (List UInt8)) :
    recvBody lib none ctx buffers = some (buffers.flatten, ctx) := by
  induction buffers with
  | nil => rfl
  | cons buffer buffers ih =>
    have hone : onRecvBody lib none ctx buffer = some (buffer, ctx) := by
      rw [onRecvBody]
      split
      · next hempty => rw [List.length_eq_zero_iff.mp hempty]
      · rfl
    rw [recvBody, hone]
    simp only [Option.bind_eq_bind, Option.bind_some, ih]
    rfl

theorem faithful_of_plain (hkey : t.key = none) : t.Faithful lib := by
  have huploaded : t.uploaded lib = some t.file := by
    rw [FileTransfer.uploaded]
    cases hsupply : t.supply with
    | callback calls =>
      have hserved := t.served calls hsupply
      dsimp only
      rw [hkey] at hserved ⊢
      rw [sendBody_plain hserved, List.drop_zero]
    | filePath => rfl
    | memoryBuffer => rfl
  refine ⟨?_, fun key hmem => by rw [hkey] at hmem; cases hmem⟩
  rw [FileTransfer.downloaded, huploaded, hkey]
  cases t.delivery with
  | callback =>
    simp only [Option.bind_eq_bind, Option.bind_some, recvBody_plain, processResponseFromGetFile]
    rw [flatten_cut t.received]
    rfl
  | filePath => rfl

/-! ## Encrypting -/

theorem cryptFile_empty {dir : Direction} (h : ctx.or (key.map (lib.starts dir)) = some s) :
    limeCryptFile lib dir ctx key [] = some ([], none) := by
  rw [limeCryptFile, h]
  rfl

theorem cryptFile_bytes {dir : Direction} (h : ctx.or (key.map (lib.starts dir)) = some s)
    (hbytes : bytes ≠ []) :
    limeCryptFile lib dir ctx key bytes =
      some ((lib.update s bytes).1, some (lib.update s bytes).2) := by
  have hlength : bytes.length ≠ 0 := fun hzero => hbytes (List.length_eq_zero_iff.mp hzero)
  rw [limeCryptFile, h]
  simp only [Option.bind_eq_bind, Option.bind_some]
  rw [if_pos hlength]
  rfl

/-- An empty answer ends the context. -/
theorem onSendBody_empty (hserved : Served (some k) file.length offset (call :: calls))
    (hanswered : call.answered = 0) :
    onSendBody lib file (some k) offset ctx call = some ([], none) := by
  have hcontext : ∃ s, ctx.or ((some k).map (lib.starts .encrypt)) = some s := by
    cases ctx with
    | none => exact ⟨_, rfl⟩
    | some s => exact ⟨s, rfl⟩
  obtain ⟨s, hs⟩ := hcontext
  rw [onSendBody, if_pos hserved.1]
  dsimp only
  rw [min_answered hserved, hanswered, List.take_zero, limeEncryptFile, cryptFile_empty hs]
  have hmore : ¬offset + ([] : List UInt8).length ≥ file.length := Nat.not_le.mpr hserved.1
  simp only [Option.bind_eq_bind, Option.bind_some]
  rw [if_neg hmore]
  rfl

/-- An answer is encrypted, and the last one ends the context. -/
theorem onSendBody_bytes (hserved : Served (some k) file.length offset (call :: calls))
    (hanswered : call.answered ≠ 0)
    (hs : ctx.or ((some k).map (lib.starts .encrypt)) = some s) :
    onSendBody lib file (some k) offset ctx call =
      some ((lib.update s ((file.drop offset).take call.answered)).1,
        if offset + call.answered = file.length then none
        else some (lib.update s ((file.drop offset).take call.answered)).2) := by
  have hlength := length_chunk hserved
  have hchunk : (file.drop offset).take call.answered ≠ [] := by
    intro hempty
    rw [hempty] at hlength
    exact hanswered hlength.symm
  have hend := hserved.2.2.1
  rw [onSendBody, if_pos hserved.1]
  dsimp only
  rw [min_answered hserved, limeEncryptFile, cryptFile_bytes hs hchunk, hlength]
  simp only [Option.bind_eq_bind, Option.bind_some]
  by_cases hlast : offset + call.answered = file.length
  · rw [if_pos (Nat.le_of_eq hlast.symm), if_pos hlast, limeEncryptFile,
      cryptFile_empty (s := (lib.update s ((file.drop offset).take call.answered)).2) rfl]
    rfl
  · rw [if_neg (by omega), if_neg hlast]
    rfl

/-- The chunks of the file that the application gives. -/
def chunks (file : List UInt8) : Nat → List SendCall → List (List UInt8)
  | _, [] => []
  | offset, call :: calls =>
      (file.drop offset).take call.answered :: chunks file (offset + call.answered) calls

theorem flatten_chunks (hserved : Served key file.length offset calls) :
    (chunks file offset calls).flatten = file.drop offset := by
  induction calls generalizing offset with
  | nil => rw [chunks, List.drop_of_length_le (Nat.le_of_eq (Eq.symm hserved))]; rfl
  | cons call calls ih =>
    rw [chunks, List.flatten_cons, ih hserved.2.2.2, drop_served]

theorem map_length_chunks (hserved : Served key file.length offset calls) :
    (chunks file offset calls).map List.length = calls.map SendCall.answered := by
  induction calls generalizing offset with
  | nil => rfl
  | cons call calls ih =>
    rw [chunks, List.map_cons, List.map_cons, ih hserved.2.2.2, length_chunk hserved]

/-- Without empty answers the chunks are encrypted one after the other. -/
theorem sendBody_outputs (hserved : Served (some k) file.length offset calls)
    (hnonempty : ∀ call ∈ calls, call.answered ≠ 0)
    (hs : ctx.or ((some k).map (lib.starts .encrypt)) = some s) :
    sendBody lib file (some k) offset ctx calls =
      some (outputs lib.update s (chunks file offset calls)) := by
  induction calls generalizing offset ctx s with
  | nil => rfl
  | cons call calls ih =>
    rw [List.forall_mem_cons] at hnonempty
    rw [sendBody, onSendBody_bytes hserved hnonempty.1 hs, chunks, outputs]
    simp only [Option.bind_eq_bind, Option.bind_some]
    rw [lib.length_update, length_chunk hserved]
    by_cases hlast : offset + call.answered = file.length
    · cases calls with
      | nil => rfl
      | cons call' calls =>
        have hmore := hserved.2.2.2.1
        omega
    · rw [if_neg hlast, ih hserved.2.2.2 hnonempty.2 rfl]
      rfl

theorem sendBody_start (lib : Library Key State 16)
    (hserved : Served (some k) file.length 0 calls) :
    sendBody lib file (some k) 0 none calls =
        sendBody lib file (some k) 0 none (calls.dropWhile fun call => call.answered = 0) ∧
      Served (some k) file.length 0 (calls.dropWhile fun call => call.answered = 0) := by
  induction calls with
  | nil => exact ⟨rfl, hserved⟩
  | cons call calls ih =>
    by_cases hzero : call.answered = 0
    · have hrest := hserved.2.2.2
      rw [hzero] at hrest
      rw [List.dropWhile_cons_of_pos (by simpa using hzero), sendBody,
        onSendBody_empty hserved hzero]
      obtain ⟨hsame, hserved'⟩ := ih hrest
      refine ⟨?_, hserved'⟩
      simp only [Option.bind_eq_bind, Option.bind_some, List.length_nil, Nat.zero_add]
      rw [hsame]
      cases sendBody lib file (some k) 0 none (calls.dropWhile fun call => call.answered = 0) with
      | none => rfl
      | some body => rfl
    · rw [List.dropWhile_cons_of_neg (by simpa using hzero)]
      exact ⟨rfl, hserved⟩

theorem dropLast_lengths {pieces : List (List UInt8)} {lengths : List Nat}
    (h : pieces.map List.length = lengths) :
    (∀ piece ∈ pieces.dropLast, 16 ∣ piece.length) ↔ ∀ n ∈ lengths.dropLast, 16 ∣ n := by
  rw [← h, ← List.map_dropLast, List.forall_mem_map]

theorem sendBody_eq_outputs (hserved : Served (some k) file.length 0 calls)
    (hnonempty : ∀ n ∈ started calls, n ≠ 0) :
    sendBody lib file (some k) 0 none calls = some (outputs lib.update (lib.starts .encrypt k)
      (chunks file 0 (calls.dropWhile fun call => call.answered = 0))) := by
  obtain ⟨hsame, hserved'⟩ := sendBody_start lib hserved
  rw [hsame]
  refine sendBody_outputs hserved' (fun call hcall => ?_) rfl
  exact hnonempty _ (List.mem_map_of_mem hcall)

theorem uploaded_mask (hserved : Served (some k) file.length 0 calls)
    (hnonempty : ∀ n ∈ started calls, n ≠ 0)
    (haligned : ∀ n ∈ (started calls).dropLast, 16 ∣ n) :
    sendBody lib file (some k) 0 none calls = some (mask (lib.keystream k) 0 file) := by
  have hserved' := (sendBody_start lib hserved).2
  rw [sendBody_eq_outputs hserved hnonempty,
    lib.whole_blocks .encrypt k _ ((dropLast_lengths (map_length_chunks hserved')).mpr haligned),
    flatten_chunks hserved', List.drop_zero]

/-! ## Decrypting -/

theorem map_length_cut (h : sizes.sum = bytes.length) :
    (cut sizes bytes).map List.length = sizes := by
  induction sizes generalizing bytes with
  | nil => rfl
  | cons n sizes ih =>
    rw [List.sum_cons] at h
    rw [cut, List.map_cons, ih (by rw [List.length_drop]; omega), List.length_take]
    exact congrArg (· :: sizes) (by omega)

/-- The pieces that are not empty. -/
def pieces (sizes : List Nat) (bytes : List UInt8) : List (List UInt8) :=
  (cut sizes bytes).filter fun piece => piece ≠ []

theorem flatten_pieces (h : sizes.sum = bytes.length) : (pieces sizes bytes).flatten = bytes := by
  rw [pieces, List.flatten_filter_ne_nil, flatten_cut h]

theorem map_length_pieces (h : sizes.sum = bytes.length) :
    (pieces sizes bytes).map List.length = filledSizes sizes := by
  have hsame : (fun piece : List UInt8 => decide (piece ≠ [])) =
      (fun n : Nat => decide (n ≠ 0)) ∘ List.length := by
    funext piece
    cases piece <;> simp
  rw [pieces, hsame, ← List.filter_map, map_length_cut h, filledSizes]

/-- The pieces that are not empty are decrypted one after the other. -/
theorem recvBody_outputs (ctx : Option State) (buffers : List (List UInt8))
    (hs : ctx.or ((some k).map (lib.starts .decrypt)) = some s) :
    ∃ ctx', recvBody lib (some k) ctx buffers =
        some (outputs lib.update s (buffers.filter fun buffer => buffer ≠ []), ctx') ∧
      ((buffers.filter fun buffer => buffer ≠ []) = [] → ctx' = ctx) ∧
      ((buffers.filter fun buffer => buffer ≠ []) ≠ [] → ctx'.isSome) := by
  induction buffers generalizing ctx s with
  | nil => exact ⟨ctx, rfl, fun _ => rfl, fun hne => absurd rfl hne⟩
  | cons buffer buffers ih =>
    by_cases hempty : buffer = []
    · subst hempty
      obtain ⟨ctx', hrest, hnone, hsome⟩ := ih ctx hs
      refine ⟨ctx', ?_, by simpa using hnone, by simpa using hsome⟩
      have hone : onRecvBody lib (some k) ctx [] = some ([], ctx) := rfl
      rw [recvBody, hone]
      simp only [Option.bind_eq_bind, Option.bind_some, hrest]
      simp
    · have hlength : buffer.length ≠ 0 := fun hzero => hempty (List.length_eq_zero_iff.mp hzero)
      have hone : onRecvBody lib (some k) ctx buffer =
          some ((lib.update s buffer).1, some (lib.update s buffer).2) := by
        rw [onRecvBody, if_neg hlength]
        exact cryptFile_bytes hs hempty
      obtain ⟨ctx', hrest, hnone, hsome⟩ := ih (some (lib.update s buffer).2) rfl
      rw [List.filter_cons_of_pos (by simpa using hempty)]
      refine ⟨ctx', ?_, fun hnil => (List.cons_ne_nil _ _ hnil).elim, fun _ => ?_⟩
      · rw [recvBody, hone]
        simp only [Option.bind_eq_bind, Option.bind_some, hrest]
        rfl
      · by_cases hmore : (buffers.filter fun buffer => buffer ≠ []) = []
        · rw [hnone hmore]
          rfl
        · exact hsome hmore

theorem processResponse_eq (ctx : Option State) :
    processResponseFromGetFile lib (some k) ctx = ctx.map fun _ => () := by
  cases ctx <;> rfl

theorem pieces_ne_nil (h : sizes.sum = bytes.length) (hbytes : bytes ≠ []) :
    pieces sizes bytes ≠ [] := by
  intro hnil
  have hflat := flatten_pieces h
  rw [hnil] at hflat
  exact hbytes hflat.symm

theorem downloaded_eq {body : List UInt8} (hkey : t.key = some k)
    (hdelivery : t.delivery = .callback) (huploaded : t.uploaded lib = some body)
    (hlength : body.length = t.file.length) (hbody : body ≠ []) :
    t.downloaded lib =
      some (outputs lib.update (lib.starts .decrypt k) (pieces t.recvSizes body)) := by
  have hsum : t.recvSizes.sum = body.length := by rw [t.received, hlength]
  obtain ⟨ctx', hrecv, -, hsome⟩ :=
    @recvBody_outputs _ _ lib k _ none (cut t.recvSizes body) rfl
  obtain ⟨s, rfl⟩ := Option.isSome_iff_exists.mp (hsome (pieces_ne_nil hsum hbody))
  rw [FileTransfer.downloaded, huploaded, hkey, hdelivery]
  simp only [Option.bind_eq_bind, Option.bind_some, hrecv, processResponse_eq, Option.map_some]
  rfl

/-- **With whole blocks on both sides** the file arrives. -/
theorem faithful_of_aligned (hkey : t.key = some k) (hfile : t.file ≠ [])
    (hsupply : t.supply = .callback calls) (hdelivery : t.delivery = .callback)
    (hnonempty : ∀ n ∈ started calls, n ≠ 0) (hsent : ∀ n ∈ (started calls).dropLast, 16 ∣ n)
    (hrecv : ∀ n ∈ (filledSizes t.recvSizes).dropLast, 16 ∣ n) : t.Faithful lib := by
  have hserved := t.served calls hsupply
  rw [hkey] at hserved
  have huploaded : t.uploaded lib = some (mask (lib.keystream k) 0 t.file) := by
    rw [FileTransfer.uploaded, hsupply, hkey]
    exact uploaded_mask hserved hnonempty hsent
  have hlength : (mask (lib.keystream k) 0 t.file).length = t.file.length := length_mask
  have hbody : mask (lib.keystream k) 0 t.file ≠ [] := by
    intro hnil
    rw [hnil] at hlength
    exact hfile (List.length_eq_zero_iff.mp hlength.symm)
  have hsum : t.recvSizes.sum = (mask (lib.keystream k) 0 t.file).length := by
    rw [t.received, hlength]
  refine ⟨?_, fun key hmem => ?_⟩
  · rw [downloaded_eq hkey hdelivery huploaded hlength hbody, lib.whole_blocks .decrypt k _
      ((dropLast_lengths (map_length_pieces hsum)).mpr hrecv), flatten_pieces hsum, mask_mask]
  · rw [hkey] at hmem
    obtain rfl := Option.some.inj hmem
    exact huploaded

/-! ## Only so -/

/-- A keystream that changes the first byte. -/
def firstByte (i : Nat) : UInt8 := if i = 0 then 1 else 0

theorem sendBody_cons {out body : List UInt8} {ctx' : Option State}
    (hone : onSendBody lib file key offset ctx call = some (out, ctx'))
    (h : sendBody lib file key offset ctx (call :: calls) = some body) :
    ∃ rest, sendBody lib file key (offset + out.length) ctx' calls = some rest ∧
      body = out ++ rest := by
  rw [sendBody, hone] at h
  simp only [Option.bind_eq_bind, Option.bind_some, Option.bind_eq_some_iff] at h
  obtain ⟨rest, hrest, hbody⟩ := h
  exact ⟨rest, hrest, (Option.some.inj hbody).symm⟩

/-- What is encrypted from the start again in the middle of the file is wrong. -/
theorem restarted_ne (hserved : Served (some k) file.length offset calls) (hpos : 0 < offset)
    (hlt : offset < file.length) :
    sendBody (tester Key 16 firstByte fun _ => 0) file (some k) offset none calls ≠
      some (mask firstByte offset (file.drop offset)) := by
  induction calls with
  | nil => exact fun _ => Nat.ne_of_lt hlt hserved
  | cons call calls ih =>
    intro h
    by_cases hzero : call.answered = 0
    · obtain ⟨rest, hrest, hbody⟩ := sendBody_cons (onSendBody_empty hserved hzero) h
      have hserved' := hserved.2.2.2
      rw [hzero] at hserved'
      refine ih hserved' ?_
      rw [hbody]
      exact hrest
    · obtain ⟨rest, -, hbody⟩ := sendBody_cons (onSendBody_bytes hserved hzero rfl) h
      have hlength := length_chunk hserved
      have hchunk : (file.drop offset).take call.answered ≠ [] := by
        intro hempty
        rw [hempty] at hlength
        exact hzero hlength.symm
      have hbegin : mask firstByte 0 ((file.drop offset).take call.answered) <+:
          mask firstByte offset ((file.drop offset).take call.answered ++
            file.drop (offset + call.answered)) := by
        rw [drop_served, hbody]
        rw [show (tester Key 16 firstByte fun _ => 0).starts .encrypt k = (.encrypt, 0) from rfl,
          tester_update_noFlip]
        exact List.prefix_append _ _
      have hsame := keystream_eq_of_mask hchunk hbegin
      rw [firstByte, firstByte, if_pos rfl, if_neg (by omega)] at hsame
      exact absurd hsame (by decide)

theorem mask_drop {ks : Nat → UInt8} (hserved : Served key file.length offset (call :: calls)) :
    mask ks offset (file.drop offset) = mask ks offset ((file.drop offset).take call.answered) ++
      mask ks (offset + call.answered) (file.drop (offset + call.answered)) := by
  conv_lhs => rw [← drop_served call.answered]
  rw [mask_append, length_chunk hserved]

/-- After an answer that is encrypted right the rest is, with the context that goes on. -/
theorem rest_of_mask {ctx : Option (Direction × Nat)}
    (hserved : Served (some k) file.length offset (call :: calls))
    (hanswered : call.answered ≠ 0)
    (hs : ctx.or ((some k).map ((tester Key 16 firstByte fun _ => 0).starts .encrypt)) =
      some (.encrypt, offset))
    (h : sendBody (tester Key 16 firstByte fun _ => 0) file (some k) offset ctx (call :: calls) =
      some (mask firstByte offset (file.drop offset))) :
    calls = [] ∨ sendBody (tester Key 16 firstByte fun _ => 0) file (some k)
        (offset + call.answered) (some (.encrypt, offset + call.answered)) calls =
      some (mask firstByte (offset + call.answered) (file.drop (offset + call.answered))) := by
  have hlength := length_chunk hserved
  obtain ⟨rest, hrest, hbody⟩ := sendBody_cons (onSendBody_bytes hserved hanswered hs) h
  rw [mask_drop hserved] at hbody
  rw [tester_update_noFlip, hlength] at hbody hrest
  dsimp only at hbody hrest
  rw [length_mask, hlength] at hrest
  rw [List.append_cancel_left hbody]
  by_cases hlast : offset + call.answered = file.length
  · cases calls with
    | nil => exact .inl rfl
    | cons call' calls =>
      have hmore := hserved.2.2.2.1
      omega
  · rw [if_neg hlast] at hrest
    exact .inr hrest

theorem nonempty_of_mask (hserved : Served (some k) file.length offset calls) (hpos : 0 < offset)
    (h : sendBody (tester Key 16 firstByte fun _ => 0) file (some k) offset
      (some (.encrypt, offset)) calls = some (mask firstByte offset (file.drop offset))) :
    ∀ call ∈ calls, call.answered ≠ 0 := by
  induction calls generalizing offset with
  | nil => exact fun _ hcall => by cases hcall
  | cons call calls ih =>
    by_cases hzero : call.answered = 0
    · obtain ⟨rest, hrest, hbody⟩ := sendBody_cons (onSendBody_empty hserved hzero) h
      have hserved' := hserved.2.2.2
      rw [hzero] at hserved'
      refine absurd ?_ (restarted_ne hserved' hpos hserved.1)
      rw [Nat.add_zero, hbody]
      exact hrest
    · rw [List.forall_mem_cons]
      refine ⟨hzero, ?_⟩
      rcases rest_of_mask hserved hzero rfl h with rfl | hrest
      · exact fun _ hcall => by cases hcall
      · exact ih hserved.2.2.2 (by omega) hrest

/-- No answer but the first ones is empty. -/
theorem started_nonempty (hserved : Served (some k) file.length 0 calls)
    (h : sendBody (tester Key 16 firstByte fun _ => 0) file (some k) 0 none calls =
      some (mask firstByte 0 file)) : ∀ n ∈ started calls, n ≠ 0 := by
  obtain ⟨hsame, hserved'⟩ := sendBody_start (tester Key 16 firstByte fun _ => 0) hserved
  rw [hsame] at h
  have hfirst := List.head?_dropWhile_not (fun call : SendCall => call.answered = 0) calls
  rw [started, List.forall_mem_map]
  generalize (calls.dropWhile fun call => call.answered = 0) = calls' at *
  cases calls' with
  | nil => exact fun _ hcall => by cases hcall
  | cons call rest =>
    have hzero : call.answered ≠ 0 := by simpa using hfirst
    rw [List.forall_mem_cons]
    refine ⟨hzero, ?_⟩
    rcases rest_of_mask hserved' hzero rfl h with rfl | hrest
    · exact fun _ hcall => by cases hcall
    · exact nonempty_of_mask hserved'.2.2.2 (by omega) hrest

theorem pieces_nil (sizes : List Nat) : pieces sizes [] = [] := by
  rw [pieces, List.filter_eq_nil_iff]
  induction sizes with
  | nil => exact fun _ hpiece => by cases hpiece
  | cons n sizes ih =>
    rw [cut, List.forall_mem_cons, List.take_nil, List.drop_nil]
    exact ⟨by simp, ih⟩

theorem downloaded_empty (hkey : t.key = some k) (hdelivery : t.delivery = .callback)
    (huploaded : t.uploaded lib = some []) : t.downloaded lib = none := by
  obtain ⟨ctx', hrecv, hnone, -⟩ := @recvBody_outputs _ _ lib k _ none (cut t.recvSizes []) rfl
  obtain rfl := hnone (pieces_nil t.recvSizes)
  rw [FileTransfer.downloaded, huploaded, hkey, hdelivery]
  simp only [Option.bind_eq_bind, Option.bind_some, hrecv, processResponse_eq, Option.map_none,
    Option.bind_none]

theorem mask_ne {ks : Nat → UInt8} (hfile : file ≠ []) (hks : ks 0 ≠ 0) :
    mask ks 0 file ≠ file := by
  intro h
  have hbegin : mask ks 0 file <+: mask (fun _ => 0) 0 (file ++ []) := by
    simp only [mask_zero, List.append_nil, h, List.prefix_rfl]
  exact hks (keystream_eq_of_mask hfile hbegin)

/-- A library that spoils what starts inside a block in one direction. -/
def spoils (dir : Direction) : Direction → UInt8 := fun dir' => if dir' = dir then 1 else 0

theorem spoils_ne (dir : Direction) : spoils dir dir ≠ 0 := by
  rw [spoils, if_pos rfl]
  decide

/-- The cuts of the sender, seen by what is encrypted inside a block. -/
theorem sent_aligned (hserved : Served (some k) file.length 0 calls)
    (hnonempty : ∀ n ∈ started calls, n ≠ 0)
    (h : sendBody (tester Key 16 (fun _ => 0) (spoils .encrypt)) file (some k) 0 none calls =
      some (mask (fun _ => 0) 0 file)) : ∀ n ∈ (started calls).dropLast, 16 ∣ n := by
  have hserved' := (sendBody_start (tester Key 16 (fun _ => 0) (spoils .encrypt)) hserved).2
  have hlengths := map_length_chunks hserved'
  have hflat := flatten_chunks hserved'
  rw [sendBody_eq_outputs hserved hnonempty] at h
  have hout : outputs (tester Key 16 (fun _ => 0) (spoils .encrypt)).update (.encrypt, 0)
      (chunks file 0 (calls.dropWhile fun call => call.answered = 0)) = mask (fun _ => 0) 0
        (chunks file 0 (calls.dropWhile fun call => call.answered = 0)).flatten := by
    rw [hflat, List.drop_zero]
    exact Option.some.inj h
  refine (dropLast_lengths hlengths).mp
    (cut_of_tester (spoils_ne .encrypt) (fun piece hpiece hnil => ?_) (Nat.dvd_zero 16) hout)
  have hmem : piece.length ∈ started calls := by
    rw [started, ← hlengths]
    exact List.mem_map_of_mem hpiece
  exact hnonempty _ hmem (by rw [hnil]; rfl)

/-- The cuts of the receiver, seen by what is decrypted inside a block. -/
theorem received_aligned (hkey : t.key = some k) (hdelivery : t.delivery = .callback)
    (hfile : t.file ≠ []) (h : t.Faithful (tester Key 16 (fun _ => 0) (spoils .decrypt))) :
    ∀ n ∈ (filledSizes t.recvSizes).dropLast, 16 ∣ n := by
  have huploaded := h.2 k hkey
  change _ = some (mask (fun _ => 0) 0 t.file) at huploaded
  rw [mask_zero] at huploaded
  have hdown := h.1
  rw [downloaded_eq hkey hdelivery huploaded rfl hfile] at hdown
  have hout : outputs (tester Key 16 (fun _ => 0) (spoils .decrypt)).update (.decrypt, 0)
      (pieces t.recvSizes t.file) = mask (fun _ => 0) 0 (pieces t.recvSizes t.file).flatten := by
    rw [mask_zero, flatten_pieces t.received]
    exact Option.some.inj hdown
  refine (dropLast_lengths (map_length_pieces t.received)).mp
    (cut_of_tester (spoils_ne .decrypt) (fun piece hpiece => ?_) (Nat.dvd_zero 16) hout)
  rw [pieces, List.mem_filter] at hpiece
  simpa using hpiece.2

/-- **If the file arrives with each library**, the blocks are whole on both sides. -/
theorem aligned_of_faithful (hkey : t.key = some k)
    (h : ∀ (ks : Nat → UInt8) (flip : Direction → UInt8), t.Faithful (tester Key 16 ks flip)) :
    t.file ≠ [] ∧ t.delivery = .callback ∧ ∃ calls, t.supply = .callback calls ∧
      (∀ n ∈ started calls, n ≠ 0) ∧ (∀ n ∈ (started calls).dropLast, 16 ∣ n) ∧
      ∀ n ∈ (filledSizes t.recvSizes).dropLast, 16 ∣ n := by
  have huploaded : ∀ ks flip, t.uploaded (tester Key 16 ks flip) = some (mask ks 0 t.file) :=
    fun ks flip => (h ks flip).2 k hkey
  have hdelivery : t.delivery = .callback := by
    cases hdelivery : t.delivery with
    | callback => rfl
    | filePath =>
      have hdown := (h (fun _ => 0) fun _ => 0).1
      rw [FileTransfer.downloaded, huploaded, hkey, hdelivery] at hdown
      cases hdown
  have hfile : t.file ≠ [] := by
    intro hnil
    have hup := huploaded (fun _ => 0) fun _ => 0
    rw [hnil] at hup
    have hdown := (h (fun _ => 0) fun _ => 0).1
    rw [downloaded_empty hkey hdelivery hup] at hdown
    cases hdown
  refine ⟨hfile, hdelivery, ?_⟩
  cases hsupply : t.supply with
  | filePath =>
    have hup := huploaded (fun _ => 1) fun _ => 0
    rw [FileTransfer.uploaded, hsupply] at hup
    exact absurd (Option.some.inj hup).symm (mask_ne hfile (by decide))
  | memoryBuffer =>
    have hup := huploaded (fun _ => 1) fun _ => 0
    rw [FileTransfer.uploaded, hsupply] at hup
    exact absurd (Option.some.inj hup).symm (mask_ne hfile (by decide))
  | callback calls =>
    have hserved := t.served calls hsupply
    rw [hkey] at hserved
    have hsend : ∀ ks flip, sendBody (tester Key 16 ks flip) t.file (some k) 0 none calls =
        some (mask ks 0 t.file) := by
      intro ks flip
      have hup := huploaded ks flip
      rwa [FileTransfer.uploaded, hsupply, hkey] at hup
    have hnonempty := started_nonempty hserved (hsend firstByte fun _ => 0)
    exact ⟨calls, rfl, hnonempty,
      sent_aligned hserved hnonempty (hsend (fun _ => 0) (spoils .encrypt)),
      received_aligned hkey hdelivery hfile (h (fun _ => 0) (spoils .decrypt))⟩

/-- **The file arrives, encrypted if a key is announced, with each library** exactly if there is no
key, or it is not empty, both sides use the callbacks, no answer after the first bytes is empty, and
all chunks sent and received but the last ones fill whole blocks. -/
theorem transferred_iff (t : FileTransfer Key) :
    (∀ (State : Type) (lib : Library Key State 16), t.Faithful lib) ↔
      t.key = none ∨
        (t.file ≠ [] ∧ t.delivery = .callback ∧ ∃ calls, t.supply = .callback calls ∧
          (∀ n ∈ started calls, n ≠ 0) ∧ (∀ n ∈ (started calls).dropLast, 16 ∣ n) ∧
          ∀ n ∈ (filledSizes t.recvSizes).dropLast, 16 ∣ n) := by
  constructor
  · intro h
    cases hkey : t.key with
    | none => exact .inl rfl
    | some k => exact .inr (aligned_of_faithful hkey fun ks flip => h _ (tester Key 16 ks flip))
  · rintro (hkey | ⟨hfile, hdelivery, calls, hsupply, hnonempty, hsent, hrecv⟩) State lib
    · exact faithful_of_plain hkey
    · cases hkey : t.key with
      | none => exact faithful_of_plain hkey
      | some k => exact faithful_of_aligned hkey hfile hsupply hdelivery hnonempty hsent hrecv

/-- A file given by its path goes to the server as it is, while the message announces a key. -/
theorem path_not_encrypted : ¬ ∀ (t : FileTransfer Unit) (State : Type)
    (lib : Library Unit State 16), t.Faithful lib := by
  intro h
  have hpath := (h {
    file := [7]
    key := some ()
    supply := .filePath
    delivery := .callback
    recvSizes := [1]
    served := fun _ hcallback => by cases hcallback
    received := rfl } _ (tester Unit 16 (fun _ => 1) fun _ => 0)).2 () rfl
  exact absurd hpath (by decide)

end Linphone
