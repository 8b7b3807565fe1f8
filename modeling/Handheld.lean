import Handheld.Memory.Dump
import Handheld.CallStack
import Handheld.Screen.Sprite
import Handheld.Keypad.Script
import Handheld.Timers
import Handheld.Image
import Handheld.Machine
import Handheld.Word.Execute
import Handheld.Byte.Execute
import Handheld.Kind
import Handheld.Interpreter.Basic
import Handheld.CommandLine.Run
import Handheld.Main
import Handheld.Proofs.Role
import Handheld.Proofs.Run
import Handheld.Proofs.CallDiscipline
import Handheld.Proofs.Drawing
import Handheld.Proofs.DrawOrder
import Handheld.Proofs.Grid
import Handheld.Proofs.ProgramCounter
import Handheld.Proofs.RunLoop
import Handheld.Proofs.TimerLaw
import Handheld.Proofs.Renderer
import Handheld.Proofs.ProgramTimers
import Handheld.Proofs.LastValue
import Handheld.Proofs.ByteMap
import Handheld.Proofs.Loading
import Handheld.Proofs.StackRing
import Handheld.Proofs.PressQueue
import Handheld.Proofs.LatestCycle
import Handheld.Proofs.WordFlags
import Handheld.Proofs.ByteFlag
import Handheld.Proofs.Footprint
import Handheld.Proofs.UnreadMemory
import Handheld.Proofs.CollisionMode
import Handheld.Proofs.KeyOrder
import Handheld.Proofs.Guarded
import Handheld.Proofs.GuardedDrawing
import Handheld.Proofs.GuardedRun
import Handheld.Proofs.Requests
import Handheld.Proofs.Tracing
import Handheld.Proofs.SpriteDrawing
import Handheld.Proofs.WordArithmetic
import Handheld.Proofs.WordBlocks
import Handheld.Proofs.LongAddition
import Handheld.Proofs.TimerBacklog
import Handheld.Proofs.OperandForms
import Handheld.Proofs.StoreLoad
import Handheld.Proofs.DumpReading
import Handheld.Proofs.CountdownLoop
import Handheld.Proofs.KeyLabels
