import SbusRemote.Core.Descriptor

/-!
# `serial.cpp`: opening and closing the port

`SerialPort::openPort` and `SerialPort::closePort`, as far as descriptors go.  What `open`,
`isatty`, `tcgetattr` and `tcsetattr` answer is not the program's to decide: `Answers` holds the
answers of one `openPort`, also those it does not get to ask for.  The attributes `openPort` fills
in between are left out, since `tcsetattr` may refuse or accept any.

`log` records the calls that opened or closed a descriptor, and is read by no definition here.
-/

namespace SbusRemote

open Descriptor

/-- `class SerialPort`: `serial_fd`, which is `-1` without a descriptor, and the calls made. -/
structure SerialPort where
  serialFd : ℤ
  log : List (Event ℤ)
  deriving DecidableEq, Repr

/-- `SerialPort::SerialPort()`.  The constructor that takes a rate leaves `serial_fd` unset. -/
def SerialPort.new : SerialPort := ⟨-1, []⟩

/-- The values the system calls of one `openPort` return. -/
structure Answers where
  /-- `open`: a descriptor or `-1`. -/
  opened : ℤ
  isatty : ℤ
  tcgetattr : ℤ
  tcsetattr : ℤ
  deriving DecidableEq, Repr

/-- `serial_fd = open(..)`. -/
def SerialPort.assignOpen (p : SerialPort) (opened : ℤ) : SerialPort where
  serialFd := opened
  log := if opened = -1 then p.log else p.log ++ [.opened opened]

/-- `close(serial_fd)`. -/
def SerialPort.closeFd (p : SerialPort) : SerialPort :=
  { p with log := p.log ++ [.closed p.serialFd] }

/-- `SerialPort::closePort`, which always returns 0. -/
def closePort (p : SerialPort) : SerialPort :=
  if p.serialFd ≠ -1 then { p.closeFd with serialFd := -1 } else p

/-- `SerialPort::openPort`.  `false` comes with the text written to `std::cerr`.  The exit after
`isatty` leaves the descriptor alone, the one after `tcsetattr` closes it but keeps its number. -/
def openPort (a : Answers) (p : SerialPort) : Except String Unit × SerialPort :=
  let p := p.assignOpen a.opened
  if p.serialFd = -1 then (.error "无法打开串口设备", p)
  else if a.isatty = 0 then (.error "非串口设备，检查设备路径", p)
  else if a.tcgetattr ≠ 0 then (.error "无法获取串口参数", closePort p)
  else if a.tcsetattr ≠ 0 then (.error "无法设置串口参数", p.closeFd)
  else (.ok (), p)

/-- `closePort` on a port that holds a descriptor. -/
lemma closePort_held {fd : ℤ} (hfd : fd ≠ -1) (log : List (Event ℤ)) :
    closePort ⟨fd, log⟩ = ⟨-1, log ++ [.closed fd]⟩ := by
  simp [closePort, SerialPort.closeFd, hfd]

@[simp] lemma closePort_without (log : List (Event ℤ)) : closePort ⟨-1, log⟩ = ⟨-1, log⟩ := by
  simp [closePort]

/-- `open` failed: the number held before, if any, is gone. -/
lemma openPort_failed {a : Answers} (h : a.opened = -1) (p : SerialPort) :
    openPort a p = (.error "无法打开串口设备", ⟨-1, p.log⟩) := by
  simp [openPort, SerialPort.assignOpen, h]

/-- `openPort` once it has a descriptor. -/
lemma openPort_opened {a : Answers} (h : a.opened ≠ -1) (p : SerialPort) :
    openPort a p =
      if a.isatty = 0 then
        (.error "非串口设备，检查设备路径", ⟨a.opened, p.log ++ [.opened a.opened]⟩)
      else if a.tcgetattr ≠ 0 then
        (.error "无法获取串口参数", ⟨-1, p.log ++ [.opened a.opened] ++ [.closed a.opened]⟩)
      else if a.tcsetattr ≠ 0 then
        (.error "无法设置串口参数",
          ⟨a.opened, p.log ++ [.opened a.opened] ++ [.closed a.opened]⟩)
      else (.ok (), ⟨a.opened, p.log ++ [.opened a.opened]⟩) := by
  simp [openPort, SerialPort.assignOpen, SerialPort.closeFd, closePort_held h, h]

end SbusRemote
