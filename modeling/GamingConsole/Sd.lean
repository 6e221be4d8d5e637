/-
The SD driver's commands (`sd.cpp`): one command without data, one with data.

The driver is a program over register accesses.  `Reg` lists the registers of the
controller and of the two blocks next to it, each with the width of its accessor
(`mmio_read8`, `mmio_read16`, `mmio_read`); what a register answers is the
device's affair.  Every polling loop of the source is bounded here by `polls`: a
loop that has used up its bound is `stuck`, so that the runs of the source are the
runs for all values of `polls` together.

`note` is the only action the source does not have.  It marks, for the properties,
where `_sdio_clock_init` and `_send_data_command` return.
-/
import GamingConsole.Board
import GamingConsole.Library.Device

namespace GamingConsole

abbrev U8 : Type := BitVec 8
abbrev U16 : Type := BitVec 16
abbrev U32 : Type := BitVec 32

/-! ### Registers and globals -/

/-- The registers, under the names of `board.h`. -/
inductive Reg where
  | blockSize
  | blockCount
  | argumentLow
  | argumentHigh
  | transferMode
  | command
  | response0
  | response2
  | response4
  | response6
  | bufferData0
  | presentState
  | powerControl
  | clockControl
  | softwareReset
  | normalInterruptStatus
  | errorInterruptStatus
  | normalInterruptStatusEnable
  | errorInterruptStatusEnable
  | hostControl2
  | capabilities1
  | hostControllerVersion
  | pinctrlEmmcPull
  | sdioCfgSdPinSel
  deriving DecidableEq

/-- The width of the register's accesses. -/
abbrev Reg.width : Reg → ℕ
  | .powerControl => 8
  | .softwareReset => 8
  | .response0 => 32
  | .response2 => 32
  | .response4 => 32
  | .response6 => 32
  | .bufferData0 => 32
  | .presentState => 32
  | .capabilities1 => 32
  | .pinctrlEmmcPull => 32
  | .sdioCfgSdPinSel => 32
  | _ => 16

/-- For the numerals that index the four words of the CID register, or the four cores. -/
instance neZero_four : NeZero 4 := ⟨Nat.succ_ne_zero 3⟩

/-- The driver's global variables. -/
inductive SdVar where
  | baseClock
  | cid (word : Fin 4)
  | rca
  | ccs
  | cardInserted
  deriving DecidableEq

abbrev SdVar.width : SdVar → ℕ
  | .baseClock => 64
  | .rca => 16
  | _ => 32

/-- `SDCommandStatus`. -/
inductive SDCommandStatus where
  | success
  | timeout
  | crcError
  | indexError
  | notExpected
  | dataTimeoutError
  | dataCrcError
  | dataEndBitError
  deriving DecidableEq

/-- What `note` marks. -/
inductive Mark where
  | clockInit (ok : Bool)
  | dataCommand (status : SDCommandStatus)
  deriving DecidableEq

/-- One access of the driver.  `loadByte` and `storeByte` are the accesses to the
caller's buffer, by offset; `ticksElapsedMs` and `delayMs` are calls into the
timer. -/
inductive SdAction where
  | read (r : Reg)
  | write (r : Reg) (v : BitVec r.width)
  | get (x : SdVar)
  | set (x : SdVar) (v : BitVec x.width)
  | loadByte (offset : ℕ)
  | storeByte (offset : ℕ) (b : U8)
  | getTicks
  | ticksElapsedMs (start ms : U64)
  | delayMs (n : U64)
  | uartPuts (msg : String)
  | uartPutHex (v : U64)
  | note (m : Mark)
  | stuck
  deriving DecidableEq

/-- What an action answers. -/
abbrev SdAction.Answer : SdAction → Type
  | .read r => BitVec r.width
  | .get x => BitVec x.width
  | .loadByte _ => U8
  | .getTicks => U64
  | .ticksElapsedMs _ _ => Bool
  | .stuck => Empty
  | _ => Unit

/-- Programs of the SD driver. -/
abbrev SdProg (α : Type) : Type := Prog SdAction SdAction.Answer α

/-- The program that performs one action. -/
def sd (e : SdAction) : SdProg e.Answer := Prog.perform e

/-- A loop that has used up its bound. -/
def sdStuck {α : Type} : SdProg α := do
  let e ← sd .stuck
  nomatch e

/-! ### Commands -/

/-- `SDResponseType`. -/
inductive SDResponseType where
  | none
  | r1
  | r1b
  | r2
  | r3
  | r4
  | r6
  | r7
  deriving DecidableEq

/-- `SDCommand`, the commands the driver issues. -/
inductive SDCommand where
  | cmd0
  | cmd2
  | cmd3
  | cmd7
  | cmd8
  | cmd11
  | cmd16
  | cmd17
  | cmd18
  | cmd24
  | cmd25
  | cmd55
  deriving DecidableEq

def SDCommand.index : SDCommand → U8
  | .cmd0 => 0#8
  | .cmd2 => 2#8
  | .cmd3 => 3#8
  | .cmd7 => 7#8
  | .cmd8 => 8#8
  | .cmd11 => 11#8
  | .cmd16 => 16#8
  | .cmd17 => 17#8
  | .cmd18 => 18#8
  | .cmd24 => 24#8
  | .cmd25 => 25#8
  | .cmd55 => 55#8

/-- `SDAppCommand`, the one the driver issues. -/
inductive SDAppCommand where
  | acmd41
  deriving DecidableEq

def SDAppCommand.index : SDAppCommand → U8
  | .acmd41 => 41#8

/-- The response and check bits of the COMMAND register. -/
def SDResponseType.commandBits : SDResponseType → U16
  | .none => 0
  | .r2 => 1#16 <<< 3 ||| 0x1#16
  | .r3 => 0x2#16
  | .r4 => 0x2#16
  | .r1 => 1#16 <<< 4 ||| 1#16 <<< 3 ||| 0x2#16
  | .r6 => 1#16 <<< 4 ||| 1#16 <<< 3 ||| 0x2#16
  | .r7 => 1#16 <<< 4 ||| 1#16 <<< 3 ||| 0x2#16
  | .r1b => 1#16 <<< 4 ||| 1#16 <<< 3 ||| 0x3#16

/-- The value for the COMMAND register, without Data Present Select. -/
def commandVal (cmd : U8) (responseType : SDResponseType) : U16 :=
  (cmd.setWidth 16 &&& 0x3F#16) <<< 8 ||| responseType.commandBits

/-- The loop of `_sdio_reset_cmd_line` and `_sdio_reset_dat_line`. -/
def resetLineLoop (bit : U8) (msg : String) (start : U64) : ℕ → SdProg Bool
  | 0 => sdStuck
  | n + 1 => do
    let v ← sd (.read .softwareReset)
    if v &&& bit ≠ 0 then do
      let late ← sd (.ticksElapsedMs start 100#64)
      if late then do
        sd (.uartPuts msg)
        let v ← sd (.read .softwareReset)
        sd (.uartPutHex (v.setWidth 64))
        sd (.uartPuts "\r\n")
        pure false
      else resetLineLoop bit msg start n
    else pure true

/-- Software Reset For CMD Line, or For DAT Line. -/
def resetLine (bit : U8) (msg : String) (polls : ℕ) : SdProg Bool := do
  sd (.write .softwareReset bit)
  let start ← sd .getTicks
  resetLineLoop bit msg start polls

/-- `_sdio_reset_cmd_line`. -/
def sdioResetCmdLine : ℕ → SdProg Bool :=
  resetLine (1#8 <<< 1) ("[SDIO] error: Software Reset For CMD Line never cleared" ++
    " after 100ms. SOFTWARE_RESET: ")

/-- `_sdio_reset_dat_line`. -/
def sdioResetDatLine : ℕ → SdProg Bool :=
  resetLine (1#8 <<< 2) ("[SDIO] error: Software Reset For DAT Line never cleared" ++
    " after 100ms. SOFTWARE_RESET: ")

/-- Wait until the CMD line is free. -/
def waitCmdFree : ℕ → SdProg Unit
  | 0 => sdStuck
  | n + 1 => do
    let present ← sd (.read .presentState)
    if present &&& 1#32 = 1#32 then waitCmdFree n else pure ()

/-- Wait until both the CMD and the DAT lines are free; the register is read once for
each of them. -/
def waitLinesFree : ℕ → SdProg Unit
  | 0 => sdStuck
  | n + 1 => do
    let present ← sd (.read .presentState)
    if present &&& 1#32 = 1#32 then waitLinesFree n
    else do
      let present ← sd (.read .presentState)
      if present >>> 1 &&& 1#32 = 1#32 then waitLinesFree n else pure ()

/-- Read both status registers until one of the bits `mask` or an error is set. -/
def waitStatus (mask : U16) : ℕ → SdProg (U16 × U16)
  | 0 => sdStuck
  | n + 1 => do
    let normalStatus ← sd (.read .normalInterruptStatus)
    let errorStatus ← sd (.read .errorInterruptStatus)
    if normalStatus &&& mask = 0 ∧ errorStatus = 0 then waitStatus mask n
    else pure (normalStatus, errorStatus)

/-- Write the argument, one half at a time. -/
def writeArgument (argument : U32) : SdProg Unit := do
  sd (.write .argumentLow ((argument &&& 0xFFFF#32).setWidth 16))
  sd (.write .argumentHigh ((argument >>> 16 &&& 0xFFFF#32).setWidth 16))

/-- The status that an error of the command phase is reported as. -/
def commandError (errorStatus : U16) : SDCommandStatus :=
  if errorStatus &&& 1#16 <<< 1 ≠ 0 then .crcError
  else if errorStatus &&& 1#16 <<< 3 ≠ 0 then .indexError
  else .timeout

/-- The status that an error of the data phase is reported as. -/
def dataError (errorStatus : U16) : SDCommandStatus :=
  if errorStatus &&& 1#16 <<< 5 ≠ 0 then .dataCrcError
  else if errorStatus &&& 1#16 <<< 6 ≠ 0 then .dataEndBitError
  else .dataTimeoutError

/-- Read back RESPONSE0, where the caller asks for it. -/
def readResponse (responseType : SDResponseType) (responseOut : Option U32) :
    SdProg (Option U32) :=
  if responseOut ≠ none ∧ responseType ≠ .none then do
    let response ← sd (.read .response0)
    pure (some response)
  else pure responseOut

/-- `_send_command`.  `responseOut` is what the caller's variable holds, `none` for a
null pointer; it comes back with the status. -/
def sendCommand (cmd : U8) (argument : U32) (responseType : SDResponseType)
    (responseOut : Option U32) (polls : ℕ) : SdProg (SDCommandStatus × Option U32) := do
  waitCmdFree polls
  writeArgument argument
  sd (.write .command (commandVal cmd responseType))
  let (_, errorStatus) ← waitStatus 1#16 polls
  if errorStatus ≠ 0 then do
    sd (.write .errorInterruptStatus errorStatus)
    let _ ← sdioResetCmdLine polls
    sd (.uartPuts "[SDIO] command error: cmd=")
    sd (.uartPutHex (cmd.setWidth 64))
    sd (.uartPuts " ERROR_INTERRUPT_STATUS=")
    sd (.uartPutHex (errorStatus.setWidth 64))
    sd (.uartPuts "\r\n")
    pure (commandError errorStatus, responseOut)
  else do
    sd (.write .normalInterruptStatus 1#16)
    let responseOut ← readResponse responseType responseOut
    pure (.success, responseOut)

/-- `_send_command` for the commands of an application: CMD55, then the command. -/
def sendAppCommand (cmd : SDAppCommand) (argument : U32) (responseType : SDResponseType)
    (responseOut : Option U32) (polls : ℕ) : SdProg (SDCommandStatus × Option U32) := do
  let (status, response) ← sendCommand SDCommand.cmd55.index 0#32 .r1 (some 0#32) polls
  if status = .crcError ∨ status = .indexError ∨ status = .timeout then pure (status, responseOut)
  else if response.getD 0 >>> 5 &&& 1#32 = 0 then pure (.notExpected, responseOut)
  else sendCommand cmd.index argument responseType responseOut polls

/-! ### Commands with data -/

/-- The new value of TRANSFER_MODE. -/
def transferModeVal (mode : U16) (blockCount : U16) (isRead : Bool) : U16 :=
  let mode := if isRead then mode ||| 1#16 <<< 4 else mode &&& ~~~(1#16 <<< 4)
  let mode := if blockCount > 1#16 then mode ||| 1#16 <<< 5 else mode &&& ~~~(1#16 <<< 5)
  let mode := mode &&& ~~~(3#16 <<< 2)
  let mode := if blockCount > 1#16 then mode ||| 1#16 <<< 2 else mode
  let mode := mode ||| 1#16 <<< 1
  mode &&& ~~~1#16

/-- Store the bytes of a word that was read. -/
def unpackWord (offset : ℕ) (data : U32) : SdProg Unit := do
  sd (.storeByte (offset + 0) ((data &&& 0xFF#32).setWidth 8))
  sd (.storeByte (offset + 1) ((data >>> 8 &&& 0xFF#32).setWidth 8))
  sd (.storeByte (offset + 2) ((data >>> 16 &&& 0xFF#32).setWidth 8))
  sd (.storeByte (offset + 3) ((data >>> 24 &&& 0xFF#32).setWidth 8))

/-- Put together the bytes of a word to write. -/
def packWord (offset : ℕ) : SdProg U32 := do
  let b0 ← sd (.loadByte (offset + 0))
  let b1 ← sd (.loadByte (offset + 1))
  let b2 ← sd (.loadByte (offset + 2))
  let b3 ← sd (.loadByte (offset + 3))
  pure (b0.setWidth 32 ||| b1.setWidth 32 <<< 8 ||| b2.setWidth 32 <<< 16 |||
    b3.setWidth 32 <<< 24)

/-- Move one word through the data port. -/
def moveWord (isRead : Bool) (offset : ℕ) : SdProg Unit :=
  if isRead then do
    let data ← sd (.read .bufferData0)
    unpackWord offset data
  else do
    let data ← packWord offset
    sd (.write .bufferData0 data)

/-- Buffer Read Ready or Buffer Write Ready. -/
def readyBit (isRead : Bool) : U16 := if isRead then 1#16 <<< 5 else 1#16 <<< 4

/-- An error of the data phase: clear it, reset the DAT line, report it. -/
def failData (errorStatus : U16) (polls : ℕ) : SdProg SDCommandStatus := do
  sd (.write .errorInterruptStatus errorStatus)
  let _ ← sdioResetDatLine polls
  pure (dataError errorStatus)

/-- Wait for the block that word `i` starts, if it starts one; `none` when the word
can be moved. -/
def startBlock (isRead : Bool) (i polls : ℕ) : SdProg (Option SDCommandStatus) :=
  if i % 128 = 0 then do
    let (_, errorStatus) ← waitStatus (readyBit isRead) polls
    if errorStatus ≠ 0 then do
      let status ← failData errorStatus polls
      pure (some status)
    else do
      sd (.write .normalInterruptStatus (readyBit isRead))
      pure none
  else pure none

/-- The loop over the words, `n` of them from word `i` on; `none` when they have all
been moved.  The block count has 16 bits, so neither the number of words nor an
offset exceeds 32 bits. -/
def moveWords (isRead : Bool) (polls : ℕ) : ℕ → ℕ → SdProg (Option SDCommandStatus)
  | 0, _ => pure none
  | n + 1, i => do
    let failed ← startBlock isRead i polls
    match failed with
    | some status => pure (some status)
    | none => do
      moveWord isRead (i * 4)
      moveWords isRead polls n (i + 1)

/-- Wait for Transfer Complete. -/
def finishTransfer (polls : ℕ) : SdProg SDCommandStatus := do
  let (_, errorStatus) ← waitStatus (1#16 <<< 1) polls
  if errorStatus ≠ 0 then failData errorStatus polls
  else do
    sd (.write .normalInterruptStatus (1#16 <<< 1))
    pure .success

/-- The data phase. -/
def dataPhase (isRead : Bool) (blockCount : U16) (polls : ℕ) : SdProg SDCommandStatus := do
  let failed ← moveWords isRead polls (blockCount.toNat * 128) 0
  match failed with
  | some status => pure status
  | none => finishTransfer polls

/-- The registers that are set up before the command. -/
def setUpTransfer (argument : U32) (blockCount : U16) (isRead : Bool) : SdProg Unit := do
  let blockSize ← sd (.read .blockSize)
  sd (.write .blockSize (blockSize &&& ~~~0xFFF#16 ||| 0x200#16))
  sd (.write .blockCount blockCount)
  writeArgument argument
  let mode ← sd (.read .transferMode)
  sd (.write .transferMode (transferModeVal mode blockCount isRead))

/-- `_send_data_command` up to its `return`. -/
def dataCommand (cmd : U8) (argument : U32) (responseType : SDResponseType) (blockCount : U16)
    (isRead : Bool) (responseOut : Option U32) (polls : ℕ) :
    SdProg (SDCommandStatus × Option U32) := do
  waitLinesFree polls
  setUpTransfer argument blockCount isRead
  sd (.write .command (commandVal cmd responseType ||| 1#16 <<< 5))
  let (_, errorStatus) ← waitStatus 1#16 polls
  if errorStatus ≠ 0 then do
    sd (.write .errorInterruptStatus errorStatus)
    let _ ← sdioResetCmdLine polls
    pure (commandError errorStatus, responseOut)
  else do
    sd (.write .normalInterruptStatus 1#16)
    let responseOut ← readResponse responseType responseOut
    let status ← dataPhase isRead blockCount polls
    pure (status, responseOut)

/-- `_send_data_command`. -/
def sendDataCommand (cmd : U8) (argument : U32) (responseType : SDResponseType)
    (blockCount : U16) (isRead : Bool) (responseOut : Option U32) (polls : ℕ) :
    SdProg (SDCommandStatus × Option U32) := do
  let (status, responseOut) ←
    dataCommand cmd argument responseType blockCount isRead responseOut polls
  sd (.note (.dataCommand status))
  pure (status, responseOut)

/-! ### `sdio_read` and `sdio_write` -/

/-- What `_sdio_report_data_error` prints. -/
def dataErrorText : SDCommandStatus → String
  | .timeout => "Command timed out.\r\n"
  | .crcError => "Command CRC error.\r\n"
  | .indexError => "Command index error.\r\n"
  | .dataTimeoutError => "Data timeout.\r\n"
  | .dataCrcError => "Data CRC error.\r\n"
  | .dataEndBitError => "Data end bit error.\r\n"
  | _ => "Unexpected command status.\r\n"

/-- `_sdio_report_data_error`. -/
def sdioReportDataError (who : String) (status : SDCommandStatus) : SdProg Unit := do
  sd (.uartPuts "[")
  sd (.uartPuts who)
  sd (.uartPuts "]: ")
  sd (.uartPuts (dataErrorText status))

/-- The problem that a card status word reports, if any. -/
def cardProblem (status : U32) : Option String :=
  if status &&& 1#32 <<< 31 ≠ 0 then some "address out of range."
  else if status &&& 1#32 <<< 30 ≠ 0 then some "misaligned address."
  else if status &&& 1#32 <<< 29 ≠ 0 then some "block length error."
  else if status &&& 1#32 <<< 26 ≠ 0 then some "write-protect violation."
  else if status &&& 1#32 <<< 21 ≠ 0 then some "card internal ECC failure."
  else if status &&& 1#32 <<< 20 ≠ 0 then some "internal card controller error."
  else if status &&& 1#32 <<< 19 ≠ 0 then some "general/unknown card error."
  else none

/-- `_sdio_check_card_status`. -/
def sdioCheckCardStatus (who : String) (status : U32) : SdProg Bool :=
  match cardProblem status with
  | none => pure true
  | some problem => do
    sd (.uartPuts "[")
    sd (.uartPuts who)
    sd (.uartPuts "]: Card Status error: ")
    sd (.uartPuts problem)
    sd (.uartPuts "\r\n")
    pure false

/-- One data command, its status reported and the card's status word checked. -/
def transferWith (who : String) (cmd : SDCommand) (isRead : Bool) (address : U32)
    (blockCount : U16) (polls : ℕ) : SdProg Bool := do
  let (status, response) ←
    sendDataCommand cmd.index address .r1 blockCount isRead (some 0#32) polls
  if status ≠ .success then do
    sdioReportDataError who status
    pure false
  else sdioCheckCardStatus who (response.getD 0)

/-- The address that a card of type `ccs` is sent for a block: in bytes, or in blocks. -/
def adjLba (ccs lba : U32) : U32 := if ccs = 0 then lba * 512#32 else lba

/-- The common body of `sdio_read` and `sdio_write`. -/
def sdioTransfer (who : String) (single multiple : SDCommand) (isRead : Bool) (unexpected : String)
    (lba count : U32) (polls : ℕ) : SdProg Bool := do
  let ccs ← sd (.get .ccs)
  -- The count is narrowed to the 16-bit parameter of `_send_data_command`.
  if count = 1 then
    transferWith who single isRead (adjLba ccs lba) (count.setWidth 16) polls
  else if count > 1 then
    transferWith who multiple isRead (adjLba ccs lba) (count.setWidth 16) polls
  else do
    sd (.uartPuts unexpected)
    pure false

/-- `sdio_read`. -/
def sdioRead : U32 → U32 → ℕ → SdProg Bool :=
  sdioTransfer "sdio_read" .cmd17 .cmd18 true
    "[sdio_read]: Read failed. Unexpected Parameters.\r\n"

/-- `sdio_write`. -/
def sdioWrite : U32 → U32 → ℕ → SdProg Bool :=
  sdioTransfer "sdio_write" .cmd24 .cmd25 false
    "[sdio_write]: Write failed. Unexpected Parameters.\r\n"

end GamingConsole
