/-
Bringing up a card: `sdio_init` and what it calls.

Out-parameters of the source come back with the result: `*f8` of
`_sdio_identify_stage1`, `*response_out` of `_sdio_acmd41_poll`.
-/
import GamingConsole.Sd

namespace GamingConsole

/-! ### The clock -/

/-- The loop of `_sdio_wait_clock_stable`. -/
def waitClockStableLoop (start : U64) : ℕ → SdProg Bool
  | 0 => sdStuck
  | n + 1 => do
    let v ← sd (.read .clockControl)
    if v >>> 1 &&& 1#16 = 0 then do
      let late ← sd (.ticksElapsedMs start 150#64)
      if late then do
        sd (.uartPuts ("[SDIO] error: Internal Clock Stable never asserted after" ++
          " 150ms. CLOCK_CONTROL: "))
        let v ← sd (.read .clockControl)
        sd (.uartPutHex (v.setWidth 64))
        sd (.uartPuts "\r\n")
        pure false
      else waitClockStableLoop start n
    else pure true

/-- `_sdio_wait_clock_stable`. -/
def sdioWaitClockStable (polls : ℕ) : SdProg Bool := do
  let start ← sd .getTicks
  waitClockStableLoop start polls

/-- `PINCTRL_EMMC_CMD_DAT_MASK` and `PINCTRL_EMMC_CMD_DAT_PULLUP`. -/
def pinctrlEmmcCmdDatMask : U32 := 0xFF0C#32

def pinctrlEmmcCmdDatPullup : U32 := 0xAA08#32

/-- `_sdio_pinctrl_init`. -/
def sdioPinctrlInit : SdProg Unit := do
  let pullReg ← sd (.read .pinctrlEmmcPull)
  sd (.write .pinctrlEmmcPull (pullReg &&& ~~~pinctrlEmmcCmdDatMask ||| pinctrlEmmcCmdDatPullup))

/-- `_sdio_cfg_select_sd_pin_timing`. -/
def sdioCfgSelectSdPinTiming : SdProg Unit := do
  let pinSel ← sd (.read .sdioCfgSdPinSel)
  sd (.write .sdioCfgSdPinSel (pinSel &&& ~~~0x3#32 ||| 1#32 <<< 1))

/-- The wait for Software Reset For All. -/
def waitResetAll (start : U64) : ℕ → SdProg Bool
  | 0 => sdStuck
  | n + 1 => do
    let v ← sd (.read .softwareReset)
    if v &&& 1#8 ≠ 0 then do
      let late ← sd (.ticksElapsedMs start 100#64)
      if late then do
        sd (.uartPuts "[SDIO] error: Software Reset For All never cleared after 100ms.\r\n")
        pure false
      else waitResetAll start n
    else pure true

/-- Change bits of CLOCK_CONTROL. -/
def modifyClockControl (f : U16 → U16) : SdProg Unit := do
  let initValue ← sd (.read .clockControl)
  sd (.write .clockControl (f initValue))

/-- The warning about a base clock that the controller's version cannot report. -/
def warnBaseClock (versionVal : U16) (baseClockMhz : U32) : SdProg Unit :=
  if versionVal < 0x02#16 ∧ baseClockMhz > 0x3F#32 then
    sd (.uartPuts ("[SDIO] warning: BCF may not be supported," ++
      " or sdio_init implementation is incorrect."))
  else pure ()

/-- The base clock in MHz, from CAPABILITIES and the controller's version. -/
def readBaseClock (capabilities : U32) : SdProg U32 := do
  let version ← sd (.read .hostControllerVersion)
  let versionVal := (version &&& 0xFF00#16) >>> 8
  let baseClockMhz := capabilities >>> 8 &&& 0xFF#32
  warnBaseClock versionVal baseClockMhz
  if baseClockMhz = 0 then do
    sd (.uartPuts ("[SDIO] Base Clock Frequency read as 0; using BCM2712's known" ++
      " fixed 200MHz clk_emmc2 clock.\r\n"))
    pure 200#32
  else pure baseClockMhz

/-- The divisor of the SD clock for the identification phase, at most 400 kHz. -/
def clockDivisor (baseClock : U64) : U64 :=
  let targetClock := 2#64 * 400000#64
  (baseClock + targetClock - 1#64) / targetClock

/-- The last part of `_sdio_clock_init`: the divisor, then the clock's enables. -/
def startClock (divisor : U64) (polls : ℕ) : SdProg Bool := do
  modifyClockControl fun v =>
    v &&& ~~~0xFF00#16 ||| ((divisor &&& 0xFF#64) <<< 8).setWidth 16
  modifyClockControl fun v => v &&& ~~~(1#16 <<< 5)
  modifyClockControl fun v => v ||| 1#16
  let stable ← sdioWaitClockStable polls
  if !stable then pure false
  else do
    modifyClockControl fun v => v ||| 1#16 <<< 3
    let stable ← sdioWaitClockStable polls
    if !stable then pure false
    else do
      modifyClockControl fun v => v ||| 1#16 <<< 2
      pure true

/-- The part of `_sdio_clock_init` that a card in the slot is needed for. -/
def powerUp (polls : ℕ) : SdProg Bool := do
  let capabilities ← sd (.read .capabilities1)
  sd (.write .powerControl 0x0F#8)
  sd (.write .normalInterruptStatusEnable 0xFFFF#16)
  sd (.write .errorInterruptStatusEnable 0xFFFF#16)
  let baseClockMhz ← readBaseClock capabilities
  sd (.set .baseClock (baseClockMhz.setWidth 64 * 1000000#64))
  let baseClock ← sd (.get .baseClock)
  startClock (clockDivisor baseClock) polls

/-- The part of `_sdio_clock_init` after the reset. -/
def setUpClock (polls : ℕ) : SdProg Bool := do
  sdioPinctrlInit
  sdioCfgSelectSdPinTiming
  let present ← sd (.read .presentState)
  let cardInserted := present >>> 16 &&& 1#32
  sd (.set .cardInserted cardInserted)
  if cardInserted = 0 then do
    sd (.uartPuts ("[SDIO] error: Card Inserted bit reads 0; no card detected" ++
      " (or card-detect logic is wrong for this controller).\r\n"))
    pure false
  else powerUp polls

/-- `_sdio_clock_init` up to its `return`. -/
def clockInit (polls : ℕ) : SdProg Bool := do
  sd (.write .softwareReset 1#8)
  let start ← sd .getTicks
  let reset ← waitResetAll start polls
  if !reset then pure false else setUpClock polls

/-- `_sdio_clock_init`. -/
def sdioClockInit (polls : ℕ) : SdProg Bool := do
  let ok ← clockInit polls
  sd (.note (.clockInit ok))
  pure ok

/-! ### Identification -/

/-- `_sdio_read_cid`, on the global `cid`. -/
def sdioReadCid (polls : ℕ) : SdProg SDCommandStatus := do
  let cid0 ← sd (.get (.cid 0))
  let (status, cid0) ← sendCommand SDCommand.cmd2.index 0#32 .r2 (some cid0) polls
  if status ≠ .success then pure status
  else do
    sd (.set (.cid 0) (cid0.getD 0))
    let response ← sd (.read .response2)
    sd (.set (.cid 1) response)
    let response ← sd (.read .response4)
    sd (.set (.cid 2) response)
    let response ← sd (.read .response6)
    sd (.set (.cid 3) response)
    pure .success

/-- `_sdio_finish_identification`. -/
def sdioFinishIdentification (polls : ℕ) : SdProg Bool := do
  let status ← sdioReadCid polls
  if status ≠ .success then pure false
  else do
    let (status, response) ← sendCommand SDCommand.cmd3.index 0#32 .r6 (some 0#32) polls
    if status ≠ .success then pure false
    else do
      sd (.set .rca ((response.getD 0 >>> 16 &&& 0xFFFF#32).setWidth 16))
      let rca ← sd (.get .rca)
      let (status, response) ←
        sendCommand SDCommand.cmd7.index (rca.setWidth 32 <<< 16) .r1b response polls
      if status ≠ .success then pure false
      else do
        let (status, _) ← sendCommand SDCommand.cmd16.index 512#32 .r1 response polls
        if status ≠ .success then pure false else pure true

/-- The attempts of `_sdio_identify_stage1`, `n` of them left; the second result
is `*f8`. -/
def identifyStage1Loop (f8 : ℕ) (polls : ℕ) : ℕ → SdProg (Bool × ℕ)
  | 0 => pure (false, f8)
  | n + 1 => do
    let _ ← sendCommand SDCommand.cmd0.index 0#32 .none none polls
    let (status, response) ← sendCommand SDCommand.cmd8.index 0x000001AA#32 .r7 (some 0#32) polls
    if status = .timeout then pure (true, 0)
    else if status = .crcError ∨ status = .indexError then do
      let ok ← sdioClockInit polls
      if !ok then pure (false, f8) else identifyStage1Loop f8 polls n
    else do
      let response := response.getD 0
      let voltageAccepted := response >>> 8 &&& 0xF#32
      let echoedPattern := response &&& 0xFF#32
      pure (decide (voltageAccepted = 0b0001#32 ∧ echoedPattern = 0xAA#32), f8)

/-- `_sdio_identify_stage1`. -/
def sdioIdentifyStage1 (f8 : ℕ) (polls : ℕ) : SdProg (Bool × ℕ) :=
  identifyStage1Loop f8 polls 2

/-- The loop of `_sdio_acmd41_poll`. -/
def acmd41PollLoop (startTicks : U64) (ocrArgument : U32) (polls : ℕ) :
    ℕ → Option U32 → SdProg (Bool × Option U32)
  | 0, _ => sdStuck
  | n + 1, responseOut => do
    let late ← sd (.ticksElapsedMs startTicks 1000#64)
    if late then pure (false, responseOut)
    else do
      let (status, responseOut) ← sendAppCommand .acmd41 ocrArgument .r3 responseOut polls
      if status = .crcError ∨ status = .indexError ∨ status = .timeout then
        pure (false, responseOut)
      else if responseOut.getD 0 >>> 31 &&& 1#32 = 0 then
        acmd41PollLoop startTicks ocrArgument polls n responseOut
      else pure (true, responseOut)

/-- `_sdio_acmd41_poll`. -/
def sdioAcmd41Poll (ocrArgument : U32) (responseOut : Option U32) (polls : ℕ) :
    SdProg (Bool × Option U32) := do
  let startTicks ← sd .getTicks
  acmd41PollLoop startTicks ocrArgument polls polls responseOut

/-- `_sdio_voltage_switch` once CMD11 has been answered. -/
def switchSignaling : SdProg Bool := do
  modifyClockControl fun v => v &&& ~~~1#16
  let present ← sd (.read .presentState)
  if present >>> 20 &&& 0xF#32 ≠ 0b0000#32 then pure false
  else do
    let signalEnable ← sd (.read .hostControl2)
    sd (.write .hostControl2 (signalEnable &&& ~~~(1#16 <<< 3) ||| 1#16 <<< 3))
    sd (.delayMs 5#64)
    let signalEnable ← sd (.read .hostControl2)
    if signalEnable >>> 3 &&& 1#16 ≠ 1#16 then pure false
    else do
      modifyClockControl fun v => v ||| 1#16
      sd (.delayMs 1#64)
      let present ← sd (.read .presentState)
      if present >>> 20 &&& 0xF#32 ≠ 0b1111#32 then pure false else pure true

/-- `_sdio_voltage_switch`. -/
def sdioVoltageSwitch (s18a : U32) (polls : ℕ) : SdProg Bool :=
  if s18a = 0 then pure true
  else do
    let (status, _) ← sendCommand SDCommand.cmd11.index 0#32 .r1 none polls
    if status ≠ .success then pure false else switchSignaling

/-- The part of `sdio_init` for a card that has not answered CMD8. -/
def initLegacy (response : Option U32) (polls : ℕ) : SdProg Bool := do
  let (ready, _) ← sdioAcmd41Poll 0x40FF8000#32 response polls
  if !ready then pure false
  else do
    sd (.uartPuts ("[sdio_init]: The currently inserted SD card is of the SDSC Ver1.01" ++
      " or Ver1.10 variant.\r\n"))
    sd (.set .ccs 0#32)
    sdioFinishIdentification polls

/-- The identification without 1.8 V signaling, after a voltage switch that failed. -/
def retryIdentification (switched : Bool) (response : Option U32) (polls : ℕ) : SdProg Bool :=
  if !switched then do
    sd (.uartPuts ("[sdio_init]: Voltage switch failed; retrying identification with" ++
      " S18R=0.\r\n"))
    let (ready, _) ← sdioAcmd41Poll 0x40FF8000#32 response polls
    pure ready
  else pure true

/-- The end of `sdio_init` for a card of high capacity. -/
def initHighCapacity (response : Option U32) (polls : ℕ) : SdProg Bool := do
  sd (.uartPuts ("[sdio_init]: The currently inserted SD card is of the SDHC/SDXC variant." ++
    " Undergoing a Signal Voltage Switch Procedure.\r\n"))
  let switched ← sdioVoltageSwitch (response.getD 0 >>> 24 &&& 1#32) polls
  let ready ← retryIdentification switched response polls
  if !ready then pure false
  else do
    sd (.uartPuts "[sdio_init]: Signal Voltage Switch Procedure complete.\r\n")
    sd (.set .ccs 1#32)
    sdioFinishIdentification polls

/-- The part of `sdio_init` for a card that has answered CMD8. -/
def initVersion2 (response : Option U32) (polls : ℕ) : SdProg Bool := do
  let (ready, response) ← sdioAcmd41Poll 0x50FF8000#32 response polls
  if !ready then pure false
  else if response.getD 0 >>> 30 &&& 1#32 = 0 then do
    sd (.set .ccs 0#32)
    sd (.uartPuts ("[sdio_init]: The currently inserted SD card is of the SDSC Ver2.00" ++
      " or Ver3.00 variant.\r\n"))
    sdioFinishIdentification polls
  else initHighCapacity response polls

/-- `sdio_init` from the identification on. -/
def identify (polls : ℕ) : SdProg Bool := do
  let (usable, f8) ← sdioIdentifyStage1 1 polls
  if !usable then pure false
  else do
    let (status, response) ← sendAppCommand .acmd41 0x01000000#32 .r3 (some 0#32) polls
    if status = .timeout then pure false
    else if status = .crcError ∨ status = .indexError then pure false
    else if f8 = 0 then initLegacy response polls
    else initVersion2 response polls

/-- `sdio_init`; what the first `_sdio_clock_init` returns is dropped. -/
def sdioInit (polls : ℕ) : SdProg Bool := do
  let _ ← sdioClockInit polls
  identify polls

end GamingConsole
